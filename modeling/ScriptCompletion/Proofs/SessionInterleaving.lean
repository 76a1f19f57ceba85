import ScriptCompletion.Engine.Schedule

namespace ScriptCompletion

/-!
# Interleavings of passes on one session

A pass touches its session three times: it begins, it reads the modules that
are kept, and it ends with one write.  The steps of one pass are not ordered
against those of another, and the session may be invalidated at any moment.
An interleaving is checked in one run over the list of its steps, which keeps a
phase for every pass; passes that do not occur stay where they are.

What a pass makes of the session that it reads is a parameter, so the results
here hold for every engine and for all texts and cursors.
-/

/-- One access to a shared session.  Numbers tell the passes apart. -/
inductive SessionStep where
  | begin (pass : Nat)
  /-- Read the modules that are kept, and make the draft. -/
  | read (pass : Nat)
  | commit (pass : Nat)
  | invalidate
deriving Repr, DecidableEq

/-- Whether the step begins a pass. -/
def SessionStep.isBegin : SessionStep → Bool
  | .begin _ =>
      true
  | .read _ | .commit _ | .invalidate =>
      false

theorem SessionStep.countP_isBegin_eq_zero
    {steps : List SessionStep} :
    steps.countP isBegin = 0 ↔ ∀ pass, .begin pass ∉ steps := by
  rw [List.countP_eq_zero]
  constructor
  · intro none pass member
    exact none _ member rfl
  · intro none step member begins
    cases step <;> simp [isBegin] at begins
    exact none _ member

/-- How far a pass has come. -/
inductive PassPhase where
  | waiting
  | begun (ticket : Ticket)
  | drafted (ticket : Ticket) (draft : Draft)
  | ended (ticket : Ticket) (result : PassResult)

namespace PassPhase

/-- The ticket of a pass that has begun. -/
def ticket? : PassPhase → Option Ticket
  | .waiting =>
      none
  | .begun ticket | .drafted ticket _ | .ended ticket _ =>
      some ticket

/-- The result of a pass that has ended. -/
def result? : PassPhase → Option PassResult
  | .waiting | .begun _ | .drafted _ _ =>
      none
  | .ended _ result =>
      some result

end PassPhase

/-- A change of the modules that a session keeps. -/
inductive SessionWrite where
  | store (ticket : Ticket) (signature : Signature) (environment : Scopes)
  | invalidate

namespace SessionWrite

/-- The session after the write. -/
def apply
    (session : Session) : SessionWrite → Session
  | .store _ signature environment =>
      session.store signature environment
  | .invalidate =>
      session.invalidate

/-- The ticket of the pass that wrote. -/
def ticket? : SessionWrite → Option Ticket
  | .store ticket _ _ =>
      some ticket
  | .invalidate =>
      none

/-- What a pass with the result has written, if anything. -/
def ofResult?
    (ticket : Ticket)
    (draft : Draft)
    (result : PassResult) : Option SessionWrite :=
  match result.outcome with
  | .completed _ =>
      some (.store ticket draft.signature draft.environment)
  | .superseded =>
      none

/-- The session after writes that are given latest first. -/
def replay
    (session : Session)
    (writes : List SessionWrite) : Session :=
  writes.foldr (fun write session => write.apply session) session

end SessionWrite

/-- The draft that each pass makes of the session that it reads. -/
abbrev PassPlan :=
  Nat → Session → Draft

/-- The passes of an engine over the texts and cursors that are asked for. -/
def Engine.plan
    (engine : Engine)
    (requests : Nat → PassRequest) : PassPlan :=
  fun pass session =>
    engine.draft session (requests pass).text (requests pass).cursor

/-- A shared session and the passes on it. -/
structure Interleaving where
  session : Session
  phase : Nat → PassPhase
  /-- The writes so far, latest first. -/
  writes : List SessionWrite

namespace Interleaving

/-- Nothing has happened on the session. -/
def initial (session : Session) : Interleaving where
  session := session
  phase := fun _ => .waiting
  writes := []

/-- Change the phase of one pass. -/
def setPhase
    (phases : Nat → PassPhase)
    (pass : Nat)
    (next : PassPhase) : Nat → PassPhase :=
  fun query => if query = pass then next else phases query

@[simp]
theorem setPhase_same
    (phases : Nat → PassPhase)
    (pass : Nat)
    (next : PassPhase) :
    setPhase phases pass next pass = next := by
  simp [setPhase]

theorem setPhase_other
    (phases : Nat → PassPhase)
    {pass query : Nat}
    (different : query ≠ pass)
    (next : PassPhase) :
    setPhase phases pass next query = phases query := by
  simp [setPhase, different]

/-- Begin a pass. -/
def begin
    (state : Interleaving)
    (pass : Nat) : Interleaving :=
  { state with
    session := state.session.begin.2
    phase := setPhase state.phase pass (.begun state.session.begin.1) }

/-- Make the draft of a pass from what the session keeps now. -/
def read
    (plan : PassPlan)
    (state : Interleaving)
    (pass : Nat)
    (ticket : Ticket) : Interleaving :=
  { state with
    phase :=
      setPhase state.phase pass
        (.drafted ticket (plan pass state.session)) }

/-- End a pass. -/
def commit
    (state : Interleaving)
    (pass : Nat)
    (ticket : Ticket)
    (draft : Draft) : Interleaving :=
  let (result, session) := draft.conclude state.session ticket
  { session := session
    phase := setPhase state.phase pass (.ended ticket result)
    writes :=
      (SessionWrite.ofResult? ticket draft result).toList ++ state.writes }

/-- Forget the modules that are kept. -/
def invalidate (state : Interleaving) : Interleaving :=
  { state with
    session := state.session.invalidate
    writes := .invalidate :: state.writes }

/-- Take one step, if the pass that takes it has come so far. -/
def step?
    (plan : PassPlan)
    (state : Interleaving) : SessionStep → Option Interleaving
  | .begin pass =>
      match state.phase pass with
      | .waiting =>
          some (state.begin pass)
      | _ =>
          none
  | .read pass =>
      match state.phase pass with
      | .begun ticket =>
          some (state.read plan pass ticket)
      | _ =>
          none
  | .commit pass =>
      match state.phase pass with
      | .drafted ticket draft =>
          some (state.commit pass ticket draft)
      | _ =>
          none
  | .invalidate =>
      some state.invalidate

/-- Take steps one after another. -/
def run?
    (plan : PassPlan) :
    Interleaving → List SessionStep → Option Interleaving
  | state, [] =>
      some state
  | state, step :: rest =>
      match state.step? plan step with
      | none =>
          none
      | some next =>
          run? plan next rest

/-- The ticket of a pass that has begun. -/
def ticket?
    (state : Interleaving)
    (pass : Nat) : Option Ticket :=
  (state.phase pass).ticket?

/-- The result of a pass that has ended. -/
def result?
    (state : Interleaving)
    (pass : Nat) : Option PassResult :=
  (state.phase pass).result?

/-- The tickets of the passes that wrote, in the order of their writes. -/
def committedTickets (state : Interleaving) : List Nat :=
  (state.writes.filterMap SessionWrite.ticket?).reverse.map Ticket.number

/-- Ending the latest pass stores its modules and completes it. -/
theorem commit_of_latest
    {state : Interleaving}
    {ticket : Ticket}
    (latest : state.session.isLatest ticket = true)
    (pass : Nat)
    (draft : Draft) :
    state.commit pass ticket draft =
      { session := state.session.store draft.signature draft.environment
        phase :=
          setPhase state.phase pass
            (.ended ticket ⟨.completed draft.items, draft.report⟩)
        writes :=
          .store ticket draft.signature draft.environment :: state.writes } := by
  simp [commit, Draft.conclude, Session.commit, latest,
    SessionWrite.ofResult?]

/-- Ending any other pass changes nothing but its phase. -/
theorem commit_of_superseded
    {state : Interleaving}
    {ticket : Ticket}
    (superseded : state.session.isLatest ticket = false)
    (pass : Nat)
    (draft : Draft) :
    state.commit pass ticket draft =
      { state with
        phase :=
          setPhase state.phase pass
            (.ended ticket ⟨.superseded, draft.report⟩) } := by
  simp [commit, Draft.conclude, Session.commit, superseded,
    SessionWrite.ofResult?]

/--
Everything that a step can do.  A commit stands here in two cases, since the
session decides between them.
-/
theorem step?_cases
    {plan : PassPlan}
    {state next : Interleaving}
    {step : SessionStep}
    (accepted : state.step? plan step = some next) :
    (∃ pass,
      step = .begin pass ∧
        state.phase pass = .waiting ∧
        next = state.begin pass) ∨
    (∃ pass ticket,
      step = .read pass ∧
        state.phase pass = .begun ticket ∧
        next = state.read plan pass ticket) ∨
    (∃ pass ticket draft,
      step = .commit pass ∧
        state.phase pass = .drafted ticket draft ∧
        state.session.isLatest ticket = true ∧
        next =
          { session :=
              state.session.store draft.signature draft.environment
            phase :=
              setPhase state.phase pass
                (.ended ticket ⟨.completed draft.items, draft.report⟩)
            writes :=
              .store ticket draft.signature draft.environment ::
                state.writes }) ∨
    (∃ pass ticket draft,
      step = .commit pass ∧
        state.phase pass = .drafted ticket draft ∧
        state.session.isLatest ticket = false ∧
        next =
          { state with
            phase :=
              setPhase state.phase pass
                (.ended ticket ⟨.superseded, draft.report⟩) }) ∨
    (step = .invalidate ∧ next = state.invalidate) := by
  cases step with
  | begin pass =>
      cases phase : state.phase pass <;>
        simp [step?, phase] at accepted
      exact .inl ⟨pass, rfl, phase, accepted.symm⟩
  | read pass =>
      cases phase : state.phase pass <;>
        simp [step?, phase] at accepted
      exact .inr (.inl ⟨pass, _, rfl, phase, accepted.symm⟩)
  | commit pass =>
      cases phase : state.phase pass <;>
        simp [step?, phase] at accepted
      rename_i ticket draft
      cases latest : state.session.isLatest ticket with
      | true =>
          rw [commit_of_latest latest] at accepted
          exact .inr (.inr (.inl
            ⟨pass, ticket, draft, rfl, phase, latest, accepted.symm⟩))
      | false =>
          rw [commit_of_superseded latest] at accepted
          exact .inr (.inr (.inr (.inl
            ⟨pass, ticket, draft, rfl, phase, latest, accepted.symm⟩)))
  | invalidate =>
      simp only [step?, Option.some.injEq] at accepted
      exact .inr (.inr (.inr (.inr ⟨rfl, accepted.symm⟩)))

/-- Two lists of steps are taken one after the other. -/
theorem run?_append
    (plan : PassPlan)
    (state : Interleaving)
    (first second : List SessionStep) :
    run? plan state (first ++ second) =
      (run? plan state first).bind fun middle => run? plan middle second := by
  induction first generalizing state with
  | nil =>
      rfl
  | cons step rest inductionHypothesis =>
      simp only [List.cons_append, run?]
      cases state.step? plan step with
      | none =>
          rfl
      | some next =>
          exact inductionHypothesis next

/-- Steps that are taken can be cut anywhere. -/
theorem run?_append_eq_some
    {plan : PassPlan}
    {state final : Interleaving}
    {first second : List SessionStep}
    (accepted : run? plan state (first ++ second) = some final) :
    ∃ middle,
      run? plan state first = some middle ∧
        run? plan middle second = some final := by
  rw [run?_append] at accepted
  exact Option.bind_eq_some_iff.mp accepted

/-- The first of several steps that are taken. -/
theorem run?_cons_eq_some
    {plan : PassPlan}
    {state final : Interleaving}
    {step : SessionStep}
    {rest : List SessionStep}
    (accepted : run? plan state (step :: rest) = some final) :
    ∃ next,
      state.step? plan step = some next ∧
        run? plan next rest = some final := by
  simp only [run?] at accepted
  cases taken : state.step? plan step with
  | none =>
      simp [taken] at accepted
  | some next =>
      simp only [taken] at accepted
      exact ⟨next, rfl, accepted⟩

/-- What every step keeps, every run keeps. -/
theorem run?_preserves
    {plan : PassPlan}
    {Invariant : Interleaving → Prop}
    (preserved :
      ∀ {state next step},
        Invariant state →
        state.step? plan step = some next →
        Invariant next)
    {state final : Interleaving}
    {steps : List SessionStep}
    (holds : Invariant state)
    (accepted : run? plan state steps = some final) :
    Invariant final := by
  induction steps generalizing state with
  | nil =>
      simp only [run?, Option.some.injEq] at accepted
      subst final
      exact holds
  | cons step rest inductionHypothesis =>
      obtain ⟨next, taken, later⟩ := run?_cons_eq_some accepted
      exact inductionHypothesis (preserved holds taken) later

/-- A phase with the same ticket leaves all tickets as they are. -/
theorem ticket?_setPhase
    {phases : Nat → PassPhase}
    {pass : Nat}
    {next : PassPhase}
    (same : next.ticket? = (phases pass).ticket?)
    (query : Nat) :
    (setPhase phases pass next query).ticket? = (phases query).ticket? := by
  by_cases samePass : query = pass
  · subst query
    simpa using same
  · rw [setPhase_other phases samePass]

/-- A beginning issues one new ticket; all other steps leave the tickets alone. -/
theorem ticket?_step_cases
    {plan : PassPlan}
    {state next : Interleaving}
    {step : SessionStep}
    (accepted : state.step? plan step = some next) :
    (∃ pass,
      step = .begin pass ∧
        state.ticket? pass = none ∧
        next.session.sequence = state.session.sequence + 1 ∧
        next.ticket? pass = some ⟨state.session.sequence + 1⟩ ∧
        ∀ query, query ≠ pass → next.ticket? query = state.ticket? query) ∨
    (step.isBegin = false ∧
      next.session.sequence = state.session.sequence ∧
      ∀ query, next.ticket? query = state.ticket? query) := by
  rcases step?_cases accepted with
    ⟨pass, rfl, phase, rfl⟩ | ⟨pass, ticket, rfl, phase, rfl⟩ |
      ⟨pass, ticket, draft, rfl, phase, latest, rfl⟩ |
      ⟨pass, ticket, draft, rfl, phase, superseded, rfl⟩ | ⟨rfl, rfl⟩
  · refine .inl ⟨pass, rfl, ?_, rfl, ?_, ?_⟩
    · simp [ticket?, phase, PassPhase.ticket?]
    · simp [ticket?, begin, Session.begin, PassPhase.ticket?]
    · intro query different
      simp [ticket?, begin, setPhase_other _ different]
  · refine .inr ⟨rfl, rfl, ticket?_setPhase ?_⟩
    simp [phase, PassPhase.ticket?]
  · refine .inr ⟨rfl, rfl, ticket?_setPhase ?_⟩
    simp [phase, PassPhase.ticket?]
  · refine .inr ⟨rfl, rfl, ticket?_setPhase ?_⟩
    simp [phase, PassPhase.ticket?]
  · exact .inr ⟨rfl, rfl, fun _ => rfl⟩

/-- A pass keeps the ticket that it got. -/
theorem ticket?_step
    {plan : PassPlan}
    {state next : Interleaving}
    {step : SessionStep}
    {pass : Nat}
    {ticket : Ticket}
    (holds : state.ticket? pass = some ticket)
    (accepted : state.step? plan step = some next) :
    next.ticket? pass = some ticket := by
  rcases ticket?_step_cases accepted with
    ⟨begun, rfl, fresh, -, -, others⟩ | ⟨-, -, same⟩
  · have different : pass ≠ begun := by
      rintro rfl
      simp [holds] at fresh
    rw [others pass different, holds]
  · rw [same pass, holds]

/-- The sequence counts the passes that begin. -/
theorem sequence_run?
    {plan : PassPlan}
    {state final : Interleaving}
    {steps : List SessionStep}
    (accepted : run? plan state steps = some final) :
    final.session.sequence =
      state.session.sequence + steps.countP SessionStep.isBegin := by
  induction steps generalizing state with
  | nil =>
      simp only [run?, Option.some.injEq] at accepted
      subst final
      rfl
  | cons step rest inductionHypothesis =>
      obtain ⟨next, taken, later⟩ := run?_cons_eq_some accepted
      have moved := inductionHypothesis later
      rcases ticket?_step_cases taken with
        ⟨begun, rfl, -, advanced, -⟩ | ⟨other, kept, -⟩
      · rw [moved, advanced, List.countP_cons_of_pos rfl]
        omega
      · rw [moved, kept, List.countP_cons_of_neg (by simp [other])]

/-- Only its own last step gives a pass its result. -/
theorem result?_step_of_ne
    {plan : PassPlan}
    {state next : Interleaving}
    {step : SessionStep}
    {pass : Nat}
    {result : Option PassResult}
    (notCommit : step ≠ .commit pass)
    (holds : state.result? pass = result)
    (accepted : state.step? plan step = some next) :
    next.result? pass = result := by
  unfold result? at holds ⊢
  rcases step?_cases accepted with
    ⟨other, rfl, phase, rfl⟩ | ⟨other, ticket, rfl, phase, rfl⟩ |
      ⟨other, ticket, draft, rfl, phase, latest, rfl⟩ |
      ⟨other, ticket, draft, rfl, phase, superseded, rfl⟩ | ⟨rfl, rfl⟩
  · by_cases samePass : pass = other
    · subst other
      simpa [begin, phase, PassPhase.result?] using holds
    · simpa [begin, setPhase_other _ samePass] using holds
  · by_cases samePass : pass = other
    · subst other
      simpa [read, phase, PassPhase.result?] using holds
    · simpa [read, setPhase_other _ samePass] using holds
  · have different : pass ≠ other := by
      rintro rfl
      exact notCommit rfl
    simpa [setPhase_other _ different] using holds
  · have different : pass ≠ other := by
      rintro rfl
      exact notCommit rfl
    simpa [setPhase_other _ different] using holds
  · exact holds

/-- A pass keeps the result with which it ended. -/
theorem result?_step
    {plan : PassPlan}
    {state next : Interleaving}
    {step : SessionStep}
    {pass : Nat}
    {result : PassResult}
    (holds : state.result? pass = some result)
    (accepted : state.step? plan step = some next) :
    next.result? pass = some result := by
  by_cases isCommit : step = .commit pass
  · subst step
    cases phase : state.phase pass <;>
      simp [step?, result?, phase, PassPhase.result?] at accepted holds
  · exact result?_step_of_ne isCommit holds accepted

/-- A pass that has just begun has no result. -/
theorem result?_after_begin
    {plan : PassPlan}
    {state next : Interleaving}
    {pass : Nat}
    (accepted : state.step? plan (.begin pass) = some next) :
    next.result? pass = none := by
  cases phase : state.phase pass <;>
    simp [step?, phase] at accepted
  subst next
  simp [result?, begin, PassPhase.result?]

end Interleaving

end ScriptCompletion
