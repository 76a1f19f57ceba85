import ScriptCompletion.Proofs.SessionInterleaving

namespace ScriptCompletion.Interleaving

/-!
# The last request wins

A ticket is the latest one as long as no other pass begins.  So a pass is
completed exactly when none has begun since, whatever the passes did in between
and in whichever order they end, and a pass that was overtaken leaves no trace
in the session.
-/

/-- What holds of the tickets at every moment. -/
structure TicketsOrderly (state : Interleaving) : Prop where
  /-- Tickets are issued in sequence. -/
  issued :
    ∀ {pass ticket},
      state.ticket? pass = some ticket →
      ticket.number ≤ state.session.sequence
  /-- No two passes share a ticket. -/
  unshared :
    ∀ {first second ticket},
      state.ticket? first = some ticket →
      state.ticket? second = some ticket →
      first = second
  /-- Only passes that have ended have written. -/
  writersEnded :
    ∀ {ticket},
      ticket ∈ state.writes.filterMap SessionWrite.ticket? →
      ∃ pass result, state.phase pass = .ended ticket result
  /-- Of two writers, the later one has the later ticket. -/
  descending :
    (state.writes.filterMap SessionWrite.ticket?).Pairwise
      fun later earlier => earlier.number < later.number

/-- Nothing is out of order before the first step. -/
theorem ticketsOrderly_initial (session : Session) :
    TicketsOrderly (.initial session) where
  issued := by
    intro pass ticket holds
    simp [ticket?, initial, PassPhase.ticket?] at holds
  unshared := by
    intro first second ticket holds
    simp [ticket?, initial, PassPhase.ticket?] at holds
  writersEnded := by
    intro ticket member
    simp [initial] at member
  descending := by
    simp [initial]

namespace TicketsOrderly

/-- A step issues tickets in sequence. -/
theorem issued_step
    {plan : PassPlan}
    {state next : Interleaving}
    {step : SessionStep}
    (orderly : TicketsOrderly state)
    (accepted : state.step? plan step = some next)
    {pass : Nat}
    {ticket : Ticket}
    (holds : next.ticket? pass = some ticket) :
    ticket.number ≤ next.session.sequence := by
  rcases ticket?_step_cases accepted with
    ⟨begun, -, -, advanced, given, others⟩ | ⟨-, kept, same⟩
  · by_cases samePass : pass = begun
    · subst begun
      simp only [given, Option.some.injEq] at holds
      subst ticket
      exact Nat.le_of_eq advanced.symm
    · rw [others pass samePass] at holds
      have earlier := orderly.issued holds
      omega
  · rw [same pass] at holds
    rw [kept]
    exact orderly.issued holds

/-- A step gives no ticket to two passes. -/
theorem unshared_step
    {plan : PassPlan}
    {state next : Interleaving}
    {step : SessionStep}
    (orderly : TicketsOrderly state)
    (accepted : state.step? plan step = some next)
    {first second : Nat}
    {ticket : Ticket}
    (firstHolds : next.ticket? first = some ticket)
    (secondHolds : next.ticket? second = some ticket) :
    first = second := by
  rcases ticket?_step_cases accepted with
    ⟨begun, -, -, -, given, others⟩ | ⟨-, -, same⟩
  · have newTicket
        {pass : Nat}
        (different : pass ≠ begun)
        (holds : next.ticket? pass = some ticket) :
        next.ticket? begun ≠ some ticket := by
      intro alsoHolds
      rw [others pass different] at holds
      have earlier := orderly.issued holds
      rw [given, Option.some.injEq] at alsoHolds
      subst ticket
      exact Nat.not_succ_le_self _ earlier
    by_cases firstBegun : first = begun
    · by_cases secondBegun : second = begun
      · rw [firstBegun, secondBegun]
      · subst first
        exact (newTicket secondBegun secondHolds firstHolds).elim
    · by_cases secondBegun : second = begun
      · subst second
        exact (newTicket firstBegun firstHolds secondHolds).elim
      · rw [others first firstBegun] at firstHolds
        rw [others second secondBegun] at secondHolds
        exact orderly.unshared firstHolds secondHolds
  · rw [same first] at firstHolds
    rw [same second] at secondHolds
    exact orderly.unshared firstHolds secondHolds

/-- The pass that writes has a later ticket than all writers before it. -/
theorem lt_of_latest
    {state : Interleaving}
    (orderly : TicketsOrderly state)
    {pass : Nat}
    {ticket written : Ticket}
    {draft : Draft}
    (phase : state.phase pass = .drafted ticket draft)
    (latest : state.session.isLatest ticket = true)
    (member : written ∈ state.writes.filterMap SessionWrite.ticket?) :
    written.number < ticket.number := by
  obtain ⟨writer, result, ended⟩ := orderly.writersEnded member
  have writerHolds : state.ticket? writer = some written := by
    simp [ticket?, ended, PassPhase.ticket?]
  have passHolds : state.ticket? pass = some ticket := by
    simp [ticket?, phase, PassPhase.ticket?]
  have isSequence : state.session.sequence = ticket.number := by
    simpa [Session.isLatest] using latest
  have notLater : written.number ≤ ticket.number := by
    rw [← isSequence]
    exact orderly.issued writerHolds
  have different : written.number ≠ ticket.number := by
    intro sameNumber
    have sameTicket : written = ticket := by
      cases written
      cases ticket
      simpa using sameNumber
    subst written
    have samePass := orderly.unshared writerHolds passHolds
    subst writer
    simp [phase] at ended
  omega

/-- Every step keeps the tickets in order. -/
theorem step
    {plan : PassPlan}
    {state next : Interleaving}
    {step : SessionStep}
    (orderly : TicketsOrderly state)
    (accepted : state.step? plan step = some next) :
    TicketsOrderly next := by
  have endedStays
      {other pass : Nat}
      {ticket : Ticket}
      {result : PassResult}
      (after : PassPhase)
      (notEnded : ∀ own outcome, state.phase other ≠ .ended own outcome)
      (ended : state.phase pass = .ended ticket result) :
      setPhase state.phase other after pass = .ended ticket result := by
    have different : pass ≠ other := by
      rintro rfl
      exact notEnded _ _ ended
    rw [setPhase_other _ different, ended]
  refine
    { issued := orderly.issued_step accepted
      unshared := orderly.unshared_step accepted
      writersEnded := ?_
      descending := ?_ }
  · intro ticket member
    rcases step?_cases accepted with
      ⟨pass, rfl, phase, rfl⟩ | ⟨pass, own, rfl, phase, rfl⟩ |
        ⟨pass, own, draft, rfl, phase, latest, rfl⟩ |
        ⟨pass, own, draft, rfl, phase, superseded, rfl⟩ | ⟨rfl, rfl⟩
    · obtain ⟨writer, result, ended⟩ := orderly.writersEnded member
      exact ⟨writer, result,
        endedStays _ (by simp [phase]) ended⟩
    · obtain ⟨writer, result, ended⟩ := orderly.writersEnded member
      exact ⟨writer, result,
        endedStays _ (by simp [phase]) ended⟩
    · simp only [List.filterMap_cons, SessionWrite.ticket?,
        List.mem_cons] at member
      rcases member with isOwn | isEarlier
      · subst ticket
        exact ⟨pass, _, setPhase_same _ _ _⟩
      · obtain ⟨writer, result, ended⟩ := orderly.writersEnded isEarlier
        exact ⟨writer, result,
          endedStays _ (by simp [phase]) ended⟩
    · obtain ⟨writer, result, ended⟩ := orderly.writersEnded member
      exact ⟨writer, result,
        endedStays _ (by simp [phase]) ended⟩
    · exact orderly.writersEnded member
  · rcases step?_cases accepted with
      ⟨pass, rfl, phase, rfl⟩ | ⟨pass, own, rfl, phase, rfl⟩ |
        ⟨pass, own, draft, rfl, phase, latest, rfl⟩ |
        ⟨pass, own, draft, rfl, phase, superseded, rfl⟩ | ⟨rfl, rfl⟩
    · exact orderly.descending
    · exact orderly.descending
    · simp only [List.filterMap_cons, SessionWrite.ticket?,
        List.pairwise_cons]
      exact ⟨fun written member => orderly.lt_of_latest phase latest member,
        orderly.descending⟩
    · exact orderly.descending
    · exact orderly.descending

end TicketsOrderly

/-- The writes of an orderly interleaving come in the order of their tickets. -/
theorem committedTickets_increasing
    {state : Interleaving}
    (orderly : TicketsOrderly state) :
    state.committedTickets.Pairwise (· < ·) := by
  unfold committedTickets
  rw [List.pairwise_map, List.pairwise_reverse]
  exact orderly.descending

/--
The modules that are kept are those that the writes leave: nothing else changes
them.
-/
def KeepsReplayed
    (start : Session)
    (state : Interleaving) : Prop :=
  state.session.signature = (SessionWrite.replay start state.writes).signature ∧
    state.session.bindings = (SessionWrite.replay start state.writes).bindings

/-- Every step changes what is kept by a write or not at all. -/
theorem KeepsReplayed.step
    {plan : PassPlan}
    {start : Session}
    {state next : Interleaving}
    {step : SessionStep}
    (replayed : KeepsReplayed start state)
    (accepted : state.step? plan step = some next) :
    KeepsReplayed start next := by
  obtain ⟨signature, bindings⟩ := replayed
  rcases step?_cases accepted with
    ⟨pass, rfl, phase, rfl⟩ | ⟨pass, ticket, rfl, phase, rfl⟩ |
      ⟨pass, ticket, draft, rfl, phase, latest, rfl⟩ |
      ⟨pass, ticket, draft, rfl, phase, superseded, rfl⟩ | ⟨rfl, rfl⟩
  · exact ⟨signature, bindings⟩
  · exact ⟨signature, bindings⟩
  · simp only [SessionWrite.replay] at signature bindings
    simp [KeepsReplayed, SessionWrite.replay, SessionWrite.apply,
      Session.store, signature, bindings]
  · exact ⟨signature, bindings⟩
  · exact ⟨rfl, rfl⟩

/--
A pass is completed when it ends if no other has begun since, and otherwise it
is superseded and leaves the session alone.
-/
theorem commit_after_begin
    {plan : PassPlan}
    {first begun earlier later : Interleaving}
    {pass : Nat}
    {middle : List SessionStep}
    (beginning : first.step? plan (.begin pass) = some begun)
    (between : run? plan begun middle = some earlier)
    (ending : earlier.step? plan (.commit pass) = some later) :
    ∃ result,
      later.result? pass = some result ∧
        ((∃ items, result.outcome = .completed items) ↔
          ∀ other, .begin other ∉ middle) ∧
        ((∃ other, .begin other ∈ middle) →
          result.outcome = .superseded ∧
            later.session = earlier.session) := by
  have counted := sequence_run? between
  have beginFree :
      middle.countP SessionStep.isBegin = 0 ↔
        ∀ other, .begin other ∉ middle :=
    SessionStep.countP_isBegin_eq_zero
  obtain ⟨advanced, given⟩ :
      begun.session.sequence = first.session.sequence + 1 ∧
        begun.ticket? pass = some ⟨first.session.sequence + 1⟩ := by
    rcases ticket?_step_cases beginning with
      ⟨other, same, -, advanced, given, -⟩ | ⟨notBegin, -⟩
    · cases same
      exact ⟨advanced, given⟩
    · simp [SessionStep.isBegin] at notBegin
  have kept :
      earlier.ticket? pass = some ⟨first.session.sequence + 1⟩ :=
    run?_preserves ticket?_step given between
  rcases step?_cases ending with
    ⟨other, wrong, -⟩ | ⟨other, ticket, wrong, -⟩ |
      ⟨other, ticket, draft, same, phase, latest, rfl⟩ |
      ⟨other, ticket, draft, same, phase, superseded, rfl⟩ | ⟨wrong, -⟩
  · cases wrong
  · cases wrong
  · cases same
    have isLatest : earlier.session.sequence = ticket.number := by
      simpa [Session.isLatest] using latest
    simp only [ticket?, phase, PassPhase.ticket?,
      Option.some.injEq] at kept
    subst ticket
    have noBegin : ∀ other, .begin other ∉ middle :=
      beginFree.mp (by simp only at isLatest; omega)
    refine ⟨⟨.completed draft.items, draft.report⟩, ?_, ?_, ?_⟩
    · simp [result?, PassPhase.result?]
    · simp [noBegin]
    · rintro ⟨other, member⟩
      exact (noBegin other member).elim
  · cases same
    have notLatest : earlier.session.sequence ≠ ticket.number := by
      simpa [Session.isLatest] using superseded
    simp only [ticket?, phase, PassPhase.ticket?,
      Option.some.injEq] at kept
    subst ticket
    have someBegin : ¬ ∀ other, .begin other ∉ middle := by
      intro noBegin
      have none := beginFree.mpr noBegin
      simp only at notLatest
      omega
    refine ⟨⟨.superseded, draft.report⟩, ?_, ?_, ?_⟩
    · simp [result?, PassPhase.result?]
    · simp [someBegin]
    · exact fun _ => ⟨rfl, rfl⟩
  · cases wrong

/-- A pass that has ended meanwhile has taken its last step. -/
theorem exists_commit
    {plan : PassPlan}
    {state final : Interleaving}
    {steps : List SessionStep}
    {pass : Nat}
    {result : PassResult}
    (notEnded : state.result? pass = none)
    (ended : final.result? pass = some result)
    (accepted : run? plan state steps = some final) :
    ∃ middle rest, steps = middle ++ .commit pass :: rest := by
  induction steps generalizing state with
  | nil =>
      simp only [run?, Option.some.injEq] at accepted
      subst final
      simp [notEnded] at ended
  | cons step rest inductionHypothesis =>
      obtain ⟨next, taken, later⟩ := run?_cons_eq_some accepted
      by_cases isCommit : step = .commit pass
      · subst step
        exact ⟨[], rest, rfl⟩
      · have stillNot : next.result? pass = none :=
          result?_step_of_ne isCommit notEnded taken
        obtain ⟨middle, tail, shape⟩ :=
          inductionHypothesis stillNot later
        exact ⟨step :: middle, tail, by simp [shape]⟩

/-- How a pass ends, seen from the whole run. -/
theorem result?_of_split
    {plan : PassPlan}
    {start : Session}
    {final : Interleaving}
    {before middle after : List SessionStep}
    {pass : Nat}
    (accepted :
      run? plan (.initial start)
          (before ++ .begin pass :: middle ++ .commit pass :: after) =
        some final) :
    ∃ earlier later result,
      run? plan (.initial start) (before ++ .begin pass :: middle) =
          some earlier ∧
        earlier.step? plan (.commit pass) = some later ∧
        final.result? pass = some result ∧
        ((∃ items, result.outcome = .completed items) ↔
          ∀ other, .begin other ∉ middle) ∧
        ((∃ other, .begin other ∈ middle) →
          result.outcome = .superseded ∧
            later.session = earlier.session) := by
  obtain ⟨earlier, reached, rest⟩ := run?_append_eq_some accepted
  obtain ⟨later, ending, tail⟩ := run?_cons_eq_some rest
  obtain ⟨first, -, fromFirst⟩ := run?_append_eq_some reached
  obtain ⟨begun, beginning, between⟩ := run?_cons_eq_some fromFirst
  obtain ⟨result, ended, completed, superseded⟩ :=
    commit_after_begin beginning between ending
  exact ⟨earlier, later, result, reached, ending,
    run?_preserves result?_step ended tail, completed, superseded⟩

/--
Last request wins, for every interleaving of passes and invalidations:

* a pass is completed iff no other pass began between its beginning and its
  end, and otherwise it is superseded and leaves the session as it was;
* the passes that write do so in the order of their tickets;
* what is kept is what the writes alone leave;
* when all passes have ended, the one that began last is completed.
-/
theorem last_request_wins
    (plan : PassPlan)
    (start : Session)
    (steps : List SessionStep)
    (final : Interleaving)
    (accepted : run? plan (.initial start) steps = some final) :
    (∀ before middle after pass,
      steps = before ++ .begin pass :: middle ++ .commit pass :: after →
      ∃ earlier later result,
        run? plan (.initial start) (before ++ .begin pass :: middle) =
            some earlier ∧
          earlier.step? plan (.commit pass) = some later ∧
          final.result? pass = some result ∧
          ((∃ items, result.outcome = .completed items) ↔
            ∀ other, .begin other ∉ middle) ∧
          ((∃ other, .begin other ∈ middle) →
            result.outcome = .superseded ∧
              later.session = earlier.session)) ∧
    final.committedTickets.Pairwise (· < ·) ∧
    KeepsReplayed start final ∧
    (∀ before after pass,
      steps = before ++ .begin pass :: after →
      (∀ other, .begin other ∉ after) →
      (∀ other, .begin other ∈ steps → (final.result? other).isSome) →
      ∃ result items,
        final.result? pass = some result ∧
          result.outcome = .completed items) := by
  refine ⟨?_, ?_, ?_, ?_⟩
  · intro before middle after pass shape
    subst steps
    exact result?_of_split accepted
  · exact committedTickets_increasing
      (run?_preserves TicketsOrderly.step
        (ticketsOrderly_initial start) accepted)
  · have initially : KeepsReplayed start (.initial start) :=
      ⟨rfl, rfl⟩
    exact run?_preserves KeepsReplayed.step initially accepted
  · intro before after pass shape noBegin allEnded
    have ended : (final.result? pass).isSome :=
      allEnded pass (by simp [shape])
    obtain ⟨result, holds⟩ := Option.isSome_iff_exists.mp ended
    subst steps
    obtain ⟨first, -, fromFirst⟩ := run?_append_eq_some accepted
    obtain ⟨begun, beginning, rest⟩ := run?_cons_eq_some fromFirst
    obtain ⟨middle, tail, split⟩ :=
      exists_commit (result?_after_begin beginning) holds rest
    subst after
    have whole :
        run? plan (.initial start)
            (before ++ .begin pass :: middle ++ .commit pass :: tail) =
          some final := by
      simpa using accepted
    obtain ⟨earlier, later, outcome, -, -, isOutcome, completed, -⟩ :=
      result?_of_split whole
    obtain ⟨items, isCompleted⟩ :=
      completed.mpr fun other member =>
        noBegin other (by simp [member])
    exact ⟨outcome, items, isOutcome, isCompleted⟩

/--
Two passes over one text, the second of which begins while the first is under
way: the first one is superseded although it ends last.
-/
theorem last_request_wins_overtaken :
    ∃ final,
      run? (Engine.standalone.plan fun _ => ⟨"load aragonos", ⟨1, 0⟩⟩)
          (.initial .initial)
          [.begin 0, .begin 1, .read 1, .read 0, .commit 1, .commit 0] =
          some final ∧
        (∃ result,
          final.result? 0 = some result ∧ result.outcome = .superseded) ∧
        final.committedTickets.Pairwise (· < ·) := by
  refine ⟨_, rfl, ?_⟩
  obtain ⟨ends, increasing, -, -⟩ :=
    last_request_wins
      (Engine.standalone.plan fun _ => ⟨"load aragonos", ⟨1, 0⟩⟩) .initial
      [.begin 0, .begin 1, .read 1, .read 0, .commit 1, .commit 0] _ rfl
  obtain ⟨earlier, later, result, -, -, ended, -, superseded⟩ :=
    ends [] [.begin 1, .read 1, .read 0, .commit 1] [] 0 rfl
  exact ⟨⟨result, ended, (superseded ⟨1, by simp⟩).1⟩, increasing⟩

end ScriptCompletion.Interleaving
