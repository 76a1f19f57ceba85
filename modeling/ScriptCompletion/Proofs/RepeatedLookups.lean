import ScriptCompletion.Proofs.ConcurrentLoading
import ScriptCompletion.Proofs.ForwardReferences
import ScriptCompletion.Proofs.InsertionOrder

namespace ScriptCompletion

/-!
# Look-ups are not repeated

A pass leaves every module that it loaded in the session, wherever its cursor is:
under the key of its load, from where it is read back by its own name.  Keys and
names do not drift apart, since no two admitted loads share either.  So a pass
behind another one with the same loads looks up the modules that could not be
loaded, and no others.
-/

/-- What happens to a session on which passes do not overlap. -/
inductive SessionEvent where
  | pass (request : PassRequest)
  | invalidate
deriving Repr, DecidableEq

namespace PassRequest

/-- The loads of the script. -/
def loads (request : PassRequest) : List LoadRequest :=
  LoadRequest.collect (Script.parse request.text).commands

/-- The signature of the script. -/
def signature (request : PassRequest) : Signature :=
  LoadRequest.signature request.loads

end PassRequest

namespace Engine

/-- The session after one event. -/
def sessionStep
    (engine : Engine)
    (session : Session) : SessionEvent → Session
  | .pass request =>
      (engine.complete session request).2
  | .invalidate =>
      session.invalidate

/-- The session after events, from a new one. -/
def sessionAfter
    (engine : Engine)
    (events : List SessionEvent) : Session :=
  events.foldl engine.sessionStep .initial

end Engine

/-- The names that a pass on the session looks up. -/
def Session.lookedUp
    (session : Session)
    (request : PassRequest) : List String :=
  LookupService.missing (session.cached request.signature) request.loads

/-- Whether a look-up gives no module. -/
def Loader.fails
    (loader : Loader)
    (name : String) : Bool :=
  match (loader.lookup name).answer.content with
  | .ok _ =>
      false
  | .error _ =>
      true

theorem Loader.fails_eq_false_iff
    {loader : Loader}
    {name : String} :
    loader.fails name = false ↔
      ∃ module, (loader.lookup name).answer.content = .ok module := by
  unfold fails
  cases (loader.lookup name).answer.content with
  | ok module =>
      simp
  | error error =>
      simp

namespace Engine

/-- A pass that overlaps with no other writes what it loaded. -/
theorem complete_eq
    (engine : Engine)
    (session : Session)
    (request : PassRequest) :
    let draft := engine.draft session.begin.2 request.text request.cursor
    engine.complete session request =
      (⟨.completed draft.items, draft.report⟩,
        session.begin.2.store draft.signature draft.environment) := by
  intro draft
  have latest := Session.isLatest_begin session
  simp only [complete, Draft.conclude, Session.commit, latest, ↓reduceIte]
  rfl

/-- What a pass reports of its look-ups. -/
theorem lookups_complete
    (engine : Engine)
    (session : Session)
    (request : PassRequest) :
    (engine.complete session request).1.report.lookups =
      (session.lookedUp request).length := by
  rw [complete_eq]
  exact (engine.loader.lookups_load _ _).1

/-- A pass asks for what it looks up. -/
theorem calls_loading
    (engine : Engine)
    (session : Session)
    (request : PassRequest) :
    (engine.loading session request.text).calls =
      (session.lookedUp request).filterMap fun name =>
        (engine.loader.lookup name).call :=
  (engine.loader.lookups_load _ _).2

/-- Every event keeps the session backed. -/
theorem backed_sessionStep
    {engine : Engine}
    (namesModules : engine.registry.NamesModules)
    {session : Session}
    (backed : session.Backed engine.loader)
    (event : SessionEvent) :
    (engine.sessionStep session event).Backed engine.loader := by
  cases event with
  | invalidate =>
      intro binding member
      cases member
  | pass request =>
      have begun : session.begin.2.Backed engine.loader := backed
      rw [sessionStep, complete_eq]
      apply Session.backed_store begun
      rw [(draft_agrees begun request.text request.cursor).environment]
      exact gives_environment_draft namesModules _ _

theorem backed_sessionAfter
    {engine : Engine}
    (namesModules : engine.registry.NamesModules)
    (events : List SessionEvent) :
    (engine.sessionAfter events).Backed engine.loader := by
  refine List.foldlRecOn events _ (Session.backed_initial engine.loader) ?_
  intro session backed event _
  exact backed_sessionStep namesModules backed event

end Engine

namespace Session

/-- A module that can be seen in the scopes that are stored is read back by its
own name, whatever its key. -/
theorem name_mem_cached_store
    {session : Session}
    {signature : Signature}
    {environment : Scopes}
    {key : String}
    {module : Module}
    (seen : .ofModule key module ∈ environment.visible .module) :
    module.name ∈
      ((session.store signature environment).cached signature).map
        Prod.fst := by
  have snapshot : environment.snapshot [.module] = environment.visible .module :=
    List.flatMap_singleton ..
  have isKept :
      .ofModule key module ∈
        (session.store signature environment).bindings := by
    simp only [store, snapshot]
    exact Keyed.mem_putAll_of_mem (environment.nodup_keys_visible .module) seen
  have current :
      (session.store signature environment).signature = some signature :=
    rfl
  rw [cached, if_pos current, Keyed.map_key_putAll, Keyed.mem_distinctBy_id,
    List.map_map]
  refine List.mem_map.mpr ⟨module, List.mem_filterMap.mpr ?_, rfl⟩
  exact ⟨.ofModule key module, isKept, rfl⟩

end Session

namespace Loader

/-- Every module that was loaded can be seen under its key. -/
theorem moduleBinding_visible
    {loader : Loader}
    {cached : List (String × Module)}
    {requests : List LoadRequest}
    {loaded : LoadedModule}
    (isLoaded : loaded ∈ (loader.load cached requests).modules) :
    loaded.moduleBinding ∈
      (loader.load cached requests).scopes.visible .module := by
  have apart := @keysApart_load loader cached requests
  have bound := Loading.bindings_scopesOf apart
  have distinct := (List.nodup_cons.mp (apart.nodup_bindings (.named ""))).2
  rw [← bound] at distinct
  rw [Loading.scopes, Scopes.visible_of_nodup distinct, bound,
    (Loading.filter_bindings _).1]
  exact List.mem_map_of_mem isLoaded

/-- An admitted request whose look-up succeeds is loaded, cached or not. -/
theorem mem_modules_of_lookup
    {loader : Loader}
    {cached : List (String × Module)}
    (trusted : loader.Trusts cached)
    {requests : List LoadRequest}
    {request : LoadRequest}
    (isAdmitted : request ∈ Admission.admitted requests)
    {module : Module}
    (succeeds : (loader.lookup request.name).answer.content = .ok module) :
    ⟨request, module⟩ ∈ (loader.load cached requests).modules := by
  rw [modules_load_of_trusts trusted, modules_load_eq]
  refine List.mem_filterMap.mpr ⟨request, isAdmitted, ?_⟩
  have supplied : loader.supply [] request = .ok module := succeeds
  rw [loaded?, supplied]

end Loader

namespace Engine

variable {engine : Engine}

/-- After a pass the session has every module whose look-up succeeds. -/
theorem name_mem_cached_complete
    (namesModules : engine.registry.NamesModules)
    {session : Session}
    (backed : session.Backed engine.loader)
    {request : PassRequest}
    {load : LoadRequest}
    (isAdmitted : load ∈ Admission.admitted request.loads)
    {module : Module}
    (succeeds : (engine.loader.lookup load.name).answer.content = .ok module) :
    load.name ∈
      ((engine.complete session request).2.cached request.signature).map
        Prod.fst := by
  have begun : session.begin.2.Backed engine.loader := backed
  have trusted := Session.trusts_cached begun request.signature
  have isLoaded := Loader.mem_modules_of_lookup trusted isAdmitted succeeds
  have ownName : module.name = load.name :=
    Loader.name_lookup namesModules succeeds
  rw [complete_eq, ← ownName]
  exact Session.name_mem_cached_store (Loader.moduleBinding_visible isLoaded)

end Engine

/-- Which requests are admitted depends on their names and aliases. -/
theorem Admission.names_admitted_of_signature
    {first second : List LoadRequest}
    (sameLoads : LoadRequest.signature first = LoadRequest.signature second) :
    (admitted first).map LoadRequest.name =
      (admitted second).map LoadRequest.name := by
  have sameAccepted :
      LoadRequest.signature (ofRequests first).accepted =
        LoadRequest.signature (ofRequests second).accepted :=
    signature_accepted sameLoads rfl rfl rfl
  have sameNames := congrArg (List.map ModuleLoad.name) sameAccepted
  simp only [LoadRequest.signature, List.map_map] at sameNames
  rw [← accepted_ofRequests, ← accepted_ofRequests, List.map_reverse,
    List.map_reverse]
  exact congrArg List.reverse sameNames

namespace Engine

variable {engine : Engine}

/-- Behind a pass with the same loads, the names that are looked up are those
whose look-up fails. -/
theorem lookedUp_complete
    (namesModules : engine.registry.NamesModules)
    {session : Session}
    (backed : session.Backed engine.loader)
    {first second : PassRequest}
    (sameLoads : second.signature = first.signature) :
    (engine.complete session first).2.lookedUp second =
      ((Admission.admitted second.loads).map LoadRequest.name).filter
        engine.loader.fails := by
  have stillBacked :
      (engine.complete session first).2.Backed engine.loader :=
    backed_sessionStep namesModules backed (.pass first)
  have trusted := Session.trusts_cached stillBacked first.signature
  rw [Session.lookedUp, LookupService.missing, sameLoads]
  apply List.filter_congr
  intro name isName
  cases found :
      ((engine.complete session first).2.cached first.signature).lookup
        name with
  | some module =>
      obtain ⟨before, after, shape, -⟩ := List.lookup_eq_some_iff.mp found
      have succeeds := trusted name module (by simp [shape])
      exact (Loader.fails_eq_false_iff.mpr ⟨module, succeeds⟩).symm
  | none =>
      -- Had the look-up succeeded, the pass before would have left the module.
      symm
      rw [Option.isNone_none, ← Bool.not_eq_false]
      intro notFailing
      obtain ⟨module, succeeds⟩ := Loader.fails_eq_false_iff.mp notFailing
      rw [Admission.names_admitted_of_signature sameLoads] at isName
      obtain ⟨load, isAdmitted, rfl⟩ := List.mem_map.mp isName
      have isCached :=
        name_mem_cached_complete namesModules backed isAdmitted succeeds
      obtain ⟨entry, inCache, sameName⟩ := List.mem_map.mp isCached
      have absent := List.lookup_eq_none_iff.mp found entry inCache
      simp [sameName] at absent

/-- Behind passes with the same loads, whatever happened before them, the names
that are looked up are those whose look-up fails. -/
theorem lookedUp_sessionAfter
    (engine : Engine)
    (namesModules : engine.registry.NamesModules)
    (history : List SessionEvent)
    (first : PassRequest)
    (between : List PassRequest)
    (second : PassRequest)
    (sameLoads :
      ∀ request ∈ second :: between, request.signature = first.signature) :
    (engine.sessionAfter
        (history ++ .pass first :: between.map .pass)).lookedUp second =
      ((Admission.admitted second.loads).map LoadRequest.name).filter
        engine.loader.fails := by
  rw [List.forall_mem_cons] at sameLoads
  -- The pass right before counts, and it is one of those with the same loads.
  rcases List.eq_nil_or_concat between with rfl | ⟨earlier, last, rfl⟩
  · have backed := backed_sessionAfter namesModules history
    rw [sessionAfter, List.foldl_append]
    exact lookedUp_complete namesModules backed sameLoads.1
  · have sameAsLast : second.signature = last.signature :=
      sameLoads.1.trans (sameLoads.2 last (by simp)).symm
    have backed :=
      backed_sessionAfter namesModules
        (history ++ .pass first :: earlier.map .pass)
    have split :
        history ++ .pass first :: (earlier.concat last).map .pass =
          (history ++ .pass first :: earlier.map .pass) ++
            [SessionEvent.pass last] := by
      simp
    rw [split, sessionAfter, List.foldl_append]
    exact lookedUp_complete namesModules backed sameAsLast

/--
A successful look-up is not repeated.  Take any passes and invalidations that do not
overlap, then passes that all have the same loads, wherever their cursors are and
whatever else their texts hold.  The last of these passes looks up those of its
admitted loads whose look-up fails, each once, and no others: nothing at all if all
of them succeed.  In particular it does not look up what any of the passes with its
loads has loaded before.
-/
theorem successful_lookups_not_repeated
    (engine : Engine)
    (registered : engine.registry.Registered)
    (history : List SessionEvent)
    (first : PassRequest)
    (between : List PassRequest)
    (second : PassRequest)
    (sameLoads :
      ∀ request ∈ second :: between, request.signature = first.signature) :
    let session :=
      engine.sessionAfter (history ++ .pass first :: between.map .pass)
    let report := (engine.complete session second).1.report
    let admitted := Admission.admitted second.loads
    let fails := fun load : LoadRequest => engine.loader.fails load.name
    report.lookups = admitted.countP fails ∧
      ((∀ load ∈ admitted, fails load = false) → report.lookups = 0) ∧
      session.lookedUp second = (admitted.filter fails).map LoadRequest.name ∧
      (engine.loading session second.text).calls =
        (admitted.filter fails).filterMap (fun load =>
          (engine.loader.lookup load.name).call) ∧
      ∀ loaded ∈
          (engine.loading (engine.sessionAfter history) first.text).modules,
        loaded.request.name ∉ session.lookedUp second := by
  intro session report admitted fails
  have lookedUp :
      session.lookedUp second =
        (admitted.filter fails).map LoadRequest.name := by
    rw [engine.lookedUp_sessionAfter registered.namesModules history first between second
      sameLoads, List.filter_map]
    rfl
  have counted : report.lookups = admitted.countP fails := by
    rw [lookups_complete, lookedUp, List.length_map, List.countP_eq_length_filter]
  refine ⟨counted, ?_, lookedUp, ?_, ?_⟩
  · intro allSucceed
    rw [counted, List.countP_eq_zero]
    intro load isAdmitted
    simp [allSucceed load isAdmitted]
  · rw [calls_loading, lookedUp, List.filterMap_map]
    rfl
  · intro loaded isLoaded isLookedUp
    have trusted :=
      Session.trusts_cached (backed_sessionAfter registered.namesModules history)
        first.signature
    have succeeds := Loader.lookup_of_trusts trusted isLoaded
    have notFailing := Loader.fails_eq_false_iff.mpr ⟨_, succeeds⟩
    rw [lookedUp] at isLookedUp
    obtain ⟨load, isFailing, sameName⟩ := List.mem_map.mp isLookedUp
    have failing : engine.loader.fails load.name = true :=
      (List.mem_filter.mp isFailing).2
    rw [sameName, notFailing] at failing
    cases failing

/--
A module under an alias, a module that is not registered and a module that is asked
for twice.  The cursor stands above all loads first, then between them, and between
the passes other commands come and go.
-/
theorem successful_lookups_not_repeated_missing_module :
    let first : PassRequest :=
      ⟨"load aragonos as dao\nload ghost\nload aragonos\n", ⟨0, 0⟩⟩
    let between : PassRequest :=
      ⟨"load aragonos as dao\nset $a 1\nload ghost\nload aragonos\n", ⟨1, 4⟩⟩
    let second : PassRequest :=
      ⟨"\nload aragonos as dao\nload ghost\nload aragonos\n", ⟨3, 0⟩⟩
    let history :=
      [.pass ⟨"load aragonos\n", ⟨1, 0⟩⟩, .invalidate,
        SessionEvent.pass ⟨"load ghost\n", ⟨1, 0⟩⟩]
    let session :=
      standalone.sessionAfter (history ++ [.pass first, .pass between])
    (∀ request ∈ [second, between], request.signature = first.signature) ∧
      (standalone.complete session second).1.report.lookups = 1 ∧
      session.lookedUp second = ["ghost"] := by
  intro first between second history session
  have sameLoads :
      ∀ request ∈ [second, between],
        request.signature = first.signature := by
    decide +kernel
  obtain ⟨counted, -, lookedUp, -, -⟩ :=
    successful_lookups_not_repeated standalone Registry.builtin_registered.directory
      history first [between] second sameLoads
  refine ⟨sameLoads, counted.trans ?_, lookedUp.trans ?_⟩
  · decide +kernel
  · decide +kernel

end Engine

end ScriptCompletion
