import ScriptCompletion.Proofs.ModuleSupply
import ScriptCompletion.Proofs.SessionInterleaving

namespace ScriptCompletion

/-!
# The session cache cannot be seen

The modules that a session keeps are the ones that the registry would give
again, whatever passes have run and however they overlapped.  So a pass that is
completed shows what it would show on a session of its own; only the number of
look-ups and the questions to the collaborators may differ.
-/

/-- Every module that the session keeps is the one that a look-up gives. -/
def Session.Backed
    (loader : Loader)
    (session : Session) : Prop :=
  AllModules loader.Gives session.bindings

namespace Session

/-- A new session keeps nothing. -/
theorem backed_initial (loader : Loader) :
    Session.initial.Backed loader := by
  intro binding member
  cases member

@[simp]
theorem cached_initial (signature : Signature) :
    Session.initial.cached signature = [] := by
  simp [cached, initial]

/-- What a session gives to a pass are modules that it keeps, under their own names. -/
theorem of_mem_cached
    {Property : Module → Prop}
    {session : Session}
    (holds : AllModules Property session.bindings)
    {signature : Signature}
    {name : String}
    {module : Module}
    (member : (name, module) ∈ session.cached signature) :
    name = module.name ∧ Property module := by
  unfold cached at member
  split at member
  · rcases Keyed.mem_of_mem_putAll member with impossible | isKept
    · cases impossible
    · obtain ⟨kept, inBindings, same⟩ := List.mem_map.mp isKept
      obtain ⟨binding, isBinding, isModule⟩ :=
        List.mem_filterMap.mp inBindings
      cases same
      exact ⟨rfl, holds binding isBinding module isModule⟩
  · cases member

/-- What a backed session gives to a pass can be trusted. -/
theorem trusts_cached
    {loader : Loader}
    {session : Session}
    (backed : session.Backed loader)
    (signature : Signature) :
    loader.Trusts (session.cached signature) := by
  intro name module member
  obtain ⟨rfl, given⟩ := of_mem_cached backed member
  exact given

/-- Storing modules that have a property keeps it. -/
theorem allModules_store
    {Property : Module → Prop}
    {session : Session}
    (holds : AllModules Property session.bindings)
    (signature : Signature)
    {environment : Scopes}
    (new : AllModules Property environment.bindings) :
    AllModules Property (session.store signature environment).bindings := by
  unfold store
  apply AllModules.putAll
  · split
    · exact holds
    · intro binding member
      cases member
  · intro binding member
    simp only [Scopes.snapshot, List.flatMap_cons, List.flatMap_nil,
      List.append_nil] at member
    exact Scopes.allModules_visible new .module binding member

/-- Storing modules that the look-ups give keeps the session backed. -/
theorem backed_store
    {loader : Loader}
    {session : Session}
    (backed : session.Backed loader)
    (signature : Signature)
    {environment : Scopes}
    (given : AllModules loader.Gives environment.bindings) :
    (session.store signature environment).Backed loader :=
  allModules_store backed signature given

end Session

/-- Two drafts that differ at most in what was looked up and asked for. -/
structure Draft.Agrees
    (first second : Draft) : Prop where
  environment : first.environment = second.environment
  items : first.items = second.items
  problems : first.report.problems = second.report.problems
  loadFailures : first.report.loadFailures = second.report.loadFailures
  walk : first.report.walk = second.report.walk

namespace Engine

/-- On a backed session a pass drafts what it would draft on a new one. -/
theorem draft_agrees
    {engine : Engine}
    {session : Session}
    (backed : session.Backed engine.loader)
    (text : String)
    (cursor : Position) :
    (engine.draft session text cursor).Agrees
      (engine.draft .initial text cursor) := by
  have trusted :=
    Session.trusts_cached backed
      (LoadRequest.signature
        (LoadRequest.collect (Script.parse text).commands))
  constructor <;>
    simp only [draft, draftOf, journey, Session.cached_initial,
      Loading.scopes, Loading.scopesBefore, Loader.modules_load_of_trusts trusted,
      Loader.failures_load_of_trusts trusted]

/-- A pass on a new session loads what the look-ups give. -/
theorem gives_environment_draft
    {engine : Engine}
    (namesModules : engine.registry.NamesModules)
    (text : String)
    (cursor : Position) :
    AllModules engine.loader.Gives
      (engine.draft .initial text cursor).environment.bindings := by
  simp only [draft, draftOf, Session.cached_initial, Loading.scopes]
  apply Loading.allModules_scopesOf
  intro loaded member
  exact Loader.gives_of_mem_modules namesModules member

/-- A pass alone on a new session ends with its draft. -/
theorem complete_initial
    (engine : Engine)
    (request : PassRequest) :
    (engine.complete .initial request).1 =
      ⟨.completed (engine.draft .initial request.text request.cursor).items,
        (engine.draft .initial request.text request.cursor).report⟩ := by
  simp [complete, Draft.conclude, Session.commit, Session.begin,
    Session.isLatest, draft, Session.cached, Session.initial]

end Engine

/-- A result that shows what the draft shows, if it shows anything. -/
structure PassResult.Shows
    (result : PassResult)
    (draft : Draft) : Prop where
  items :
    ∀ items,
      result.outcome = .completed items →
      items = draft.items
  problems : result.report.problems = draft.report.problems
  loadFailures : result.report.loadFailures = draft.report.loadFailures
  walk : result.report.walk = draft.report.walk

/-- A completed pass that shows what it would alone is completed alike alone. -/
theorem PassResult.Shows.alone
    {engine : Engine}
    {request : PassRequest}
    {result : PassResult}
    {items : List Suggestion.Item}
    (shown :
      result.Shows (engine.draft .initial request.text request.cursor))
    (completed : result.outcome = .completed items) :
    let alone := (engine.complete .initial request).1
    alone.outcome = .completed items ∧
      result.report.problems = alone.report.problems ∧
      result.report.loadFailures = alone.report.loadFailures ∧
      result.report.walk = alone.report.walk := by
  rw [Engine.complete_initial, shown.items items completed]
  exact ⟨rfl, shown.problems, shown.loadFailures, shown.walk⟩

namespace Interleaving

/--
The invariant of a shared session: it keeps what the look-ups give, and every
pass has drafted or shown what it would have alone.
-/
structure Transparent
    (engine : Engine)
    (requests : Nat → PassRequest)
    (state : Interleaving) : Prop where
  backed : state.session.Backed engine.loader
  drafts :
    ∀ {pass ticket draft},
      state.phase pass = .drafted ticket draft →
      draft.Agrees (engine.plan requests pass .initial)
  results :
    ∀ {pass ticket result},
      state.phase pass = .ended ticket result →
      result.Shows (engine.plan requests pass .initial)

/-- The invariant holds before the first step. -/
theorem transparent_initial
    (engine : Engine)
    (requests : Nat → PassRequest) :
    Transparent engine requests (.initial .initial) where
  backed := Session.backed_initial engine.loader
  drafts := by
    intro pass ticket draft phase
    cases phase
  results := by
    intro pass ticket result phase
    cases phase

namespace Transparent

variable {engine : Engine} {requests : Nat → PassRequest}

/-- The invariant after one pass has changed its phase. -/
theorem setPhase
    {state : Interleaving}
    (transparent : Transparent engine requests state)
    {session : Session}
    (backed : session.Backed engine.loader)
    {pass : Nat}
    {next : PassPhase}
    (drafted :
      ∀ ticket draft,
        next = .drafted ticket draft →
        draft.Agrees (engine.plan requests pass .initial))
    (ended :
      ∀ ticket result,
        next = .ended ticket result →
        result.Shows (engine.plan requests pass .initial))
    (writes : List SessionWrite) :
    Transparent engine requests
      ⟨session, Interleaving.setPhase state.phase pass next, writes⟩ where
  backed := backed
  drafts := by
    intro query ticket draft phase
    by_cases samePass : query = pass
    · subst query
      simp only [setPhase_same] at phase
      exact drafted ticket draft phase
    · simp only [setPhase_other _ samePass] at phase
      exact transparent.drafts phase
  results := by
    intro query ticket result phase
    by_cases samePass : query = pass
    · subst query
      simp only [setPhase_same] at phase
      exact ended ticket result phase
    · simp only [setPhase_other _ samePass] at phase
      exact transparent.results phase

/-- Every step keeps the invariant. -/
theorem step
    (namesModules : engine.registry.NamesModules)
    {state next : Interleaving}
    {step : SessionStep}
    (transparent : Transparent engine requests state)
    (accepted : state.step? (engine.plan requests) step = some next) :
    Transparent engine requests next := by
  rcases step?_cases accepted with
    ⟨pass, rfl, phase, rfl⟩ | ⟨pass, ticket, rfl, phase, rfl⟩ |
      ⟨pass, ticket, draft, rfl, phase, latest, rfl⟩ |
      ⟨pass, ticket, draft, rfl, phase, superseded, rfl⟩ | ⟨rfl, rfl⟩
  · have stillBacked :
        state.session.begin.2.Backed engine.loader :=
      transparent.backed
    refine transparent.setPhase stillBacked ?_ ?_ _
    · intro ticket draft impossible
      cases impossible
    · intro ticket result impossible
      cases impossible
  · refine transparent.setPhase transparent.backed ?_ ?_ _
    · intro own draft isDrafted
      cases isDrafted
      exact Engine.draft_agrees transparent.backed _ _
    · intro own result impossible
      cases impossible
  · have agrees := transparent.drafts phase
    refine transparent.setPhase ?_ (by simp) ?_ _
    · apply Session.backed_store transparent.backed
      rw [agrees.environment]
      exact Engine.gives_environment_draft namesModules _ _
    · intro own result isEnded
      cases isEnded
      exact
        { items := by
            intro items isCompleted
            cases isCompleted
            exact agrees.items
          problems := agrees.problems
          loadFailures := agrees.loadFailures
          walk := agrees.walk }
  · have agrees := transparent.drafts phase
    refine transparent.setPhase transparent.backed (by simp) ?_ _
    intro own result isEnded
    cases isEnded
    exact
      { items := by
          intro items isCompleted
          cases isCompleted
        problems := agrees.problems
        loadFailures := agrees.loadFailures
        walk := agrees.walk }
  · exact
      { backed := by
          intro binding member
          cases member
        drafts := transparent.drafts
        results := transparent.results }

/-- Every interleaving keeps the invariant. -/
theorem run?
    (namesModules : engine.registry.NamesModules)
    {steps : List SessionStep}
    {final : Interleaving}
    (accepted :
      Interleaving.run? (engine.plan requests) (.initial .initial) steps =
        some final) :
    Transparent engine requests final :=
  run?_preserves (step namesModules) (transparent_initial engine requests)
    accepted

theorem shows
    {state : Interleaving}
    (transparent : Transparent engine requests state)
    {pass : Nat}
    {result : PassResult}
    (ended : state.result? pass = some result) :
    result.Shows (engine.plan requests pass .initial) := by
  cases phase : state.phase pass with
  | ended ticket own =>
      simp only [result?, phase, PassPhase.result?,
        Option.some.injEq] at ended
      subst own
      exact transparent.results phase
  | waiting | begun | drafted =>
      simp [result?, phase, PassPhase.result?] at ended

end Transparent

/--
The session cache cannot be seen.  In every interleaving of passes and
invalidations on one session, a pass that is completed offers the items and
reports the syntax problems, the failed loads and the walk of the same pass
alone on a new session.  So two completed passes over one text at one cursor
offer the same items.
-/
theorem session_cache_transparent
    (engine : Engine)
    (registered : engine.registry.Registered)
    (requests : Nat → PassRequest)
    (steps : List SessionStep)
    (final : Interleaving)
    (accepted :
      run? (engine.plan requests) (.initial .initial) steps = some final) :
    (∀ pass result items,
      final.result? pass = some result →
      result.outcome = .completed items →
      let alone := (engine.complete .initial (requests pass)).1
      alone.outcome = .completed items ∧
        result.report.problems = alone.report.problems ∧
        result.report.loadFailures = alone.report.loadFailures ∧
        result.report.walk = alone.report.walk) ∧
    (∀ first second firstResult secondResult firstItems secondItems,
      requests first = requests second →
      final.result? first = some firstResult →
      final.result? second = some secondResult →
      firstResult.outcome = .completed firstItems →
      secondResult.outcome = .completed secondItems →
      firstItems = secondItems) := by
  have transparent := Transparent.run? registered.namesModules accepted
  constructor
  · intro pass result items ended completed
    exact (transparent.shows ended).alone completed
  · intro first second firstResult secondResult firstItems secondItems
      sameRequest firstEnded secondEnded firstCompleted secondCompleted
    rw [(transparent.shows firstEnded).items firstItems firstCompleted,
      (transparent.shows secondEnded).items secondItems secondCompleted]
    simp only [Engine.plan, sameRequest]

/--
Two overlapping passes over one text, then an invalidation and a third pass,
which is completed and agrees with a pass alone.
-/
theorem session_cache_transparent_overlap :
    let requests : Nat → PassRequest :=
      fun _ => ⟨"load aragonos", ⟨1, 0⟩⟩
    let steps : List SessionStep :=
      [.begin 0, .read 0, .begin 1, .read 1, .commit 1, .commit 0,
        .invalidate, .begin 2, .read 2, .commit 2]
    ∃ final result items,
      run? (Engine.standalone.plan requests) (.initial .initial) steps =
          some final ∧
        final.result? 2 = some result ∧
        result.outcome = .completed items ∧
        (Engine.standalone.complete .initial (requests 2)).1.outcome =
          .completed items := by
  intro requests steps
  have completes
      (plan : PassPlan) :
      ∃ final result items,
        run? plan (.initial .initial) steps = some final ∧
          final.result? 2 = some result ∧
          result.outcome = .completed items :=
    ⟨_, _, _, rfl, rfl, rfl⟩
  obtain ⟨final, result, items, accepted, ended, completed⟩ :=
    completes (Engine.standalone.plan requests)
  have transparent :=
    session_cache_transparent Engine.standalone
      Registry.builtin_registered.directory requests steps final accepted
  exact ⟨final, result, items, accepted, ended, completed,
    (transparent.1 2 result items ended completed).1⟩

end Interleaving

end ScriptCompletion
