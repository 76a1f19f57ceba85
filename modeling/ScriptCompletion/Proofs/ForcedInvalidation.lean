import ScriptCompletion.Proofs.KeyedLists
import ScriptCompletion.Proofs.LastRequestWins

namespace ScriptCompletion

/-!
# What an invalidation forgets, and what may come back

An invalidation empties the session, but it is not a request: the sequence stays
where it is.  So a pass that is under way and began last before the invalidation
still holds the latest ticket, and if no other pass begins until it ends, it
writes what it found before the invalidation.  It is the only one that can: the
modules of all other passes that began before stay forgotten.
-/

/-- A binding that a session keeps and the ticket of the pass that wrote it.
What was there at the start has no writer. -/
structure KeptBinding where
  binding : Binding
  writer : Option Ticket

namespace SessionWrite

/-- What is kept after writes that are given latest first, each binding with its
writer. -/
def kept
    (start : Session) : List SessionWrite → List KeptBinding
  | [] =>
      start.bindings.map fun binding => ⟨binding, none⟩
  | .invalidate :: _ =>
      []
  | .store ticket signature environment :: earlier =>
      Keyed.putAll (fun kept => Binding.key kept.binding)
        (if (replay start earlier).signature = some signature then
          kept start earlier
        else
          [])
        ((environment.snapshot [.module]).map fun binding =>
          ⟨binding, some ticket⟩)

/-- The writers are only noted: what is kept is what the writes leave. -/
theorem binding_kept
    (start : Session)
    (writes : List SessionWrite) :
    (kept start writes).map KeptBinding.binding =
      (replay start writes).bindings := by
  induction writes with
  | nil =>
      simp [kept, replay, Function.comp_def]
  | cons write earlier inductionHypothesis =>
      cases write with
      | invalidate =>
          rfl
      | store ticket signature environment =>
          have unfolded :
              replay start (.store ticket signature environment :: earlier) =
                (replay start earlier).store signature environment :=
            rfl
          rw [unfolded, kept, Keyed.map_putAll, List.map_map]
          simp only [Session.store, Function.comp_def, List.map_id']
          split
          · rw [inductionHypothesis]
          · rfl

end SessionWrite

/-- The pass is under way between two lists of steps, and from its beginning in
the first one to its end in the second one no other pass begins. -/
def SessionStep.Straddles
    (before after : List SessionStep)
    (pass : Nat) : Prop :=
  ∃ earlier between middle rest,
    before = earlier ++ .begin pass :: between ∧
      after = middle ++ .commit pass :: rest ∧
      ∀ other, .begin other ∉ between ++ middle

namespace Interleaving

variable {plan : PassPlan}

/-- What holds before the first step and is carried over by every step, together
with the steps taken so far, holds of every run. -/
theorem run?_induction
    {start final : Interleaving}
    {steps : List SessionStep}
    {motive : List SessionStep → Interleaving → Prop}
    (accepted : run? plan start steps = some final)
    (nothing : motive [] start)
    (further :
      ∀ {taken state step next},
        run? plan start taken = some state →
        state.step? plan step = some next →
        motive taken state →
        motive (taken ++ [step]) next) :
    motive steps final := by
  -- The induction is over the steps to come, behind those that were taken.
  have onwards
      {taken coming : List SessionStep}
      {state : Interleaving}
      (reached : run? plan start taken = some state)
      (holds : motive taken state)
      (later : run? plan state coming = some final) :
      motive (taken ++ coming) final := by
    induction coming generalizing taken state with
    | nil =>
        simp only [run?, Option.some.injEq] at later
        subst final
        simpa using holds
    | cons step rest inductionHypothesis =>
        obtain ⟨next, isNext, afterwards⟩ := run?_cons_eq_some later
        have reachedNext : run? plan start (taken ++ [step]) = some next := by
          simp [run?_append, reached, run?, isNext]
        have whole :=
          inductionHypothesis reachedNext (further reached isNext holds)
            afterwards
        simpa using whole
  exact onwards rfl nothing accepted

/-- Where no pass begins, no ticket changes. -/
theorem ticket?_run?_of_no_begin
    {state final : Interleaving}
    {steps : List SessionStep}
    (noBegin : ∀ other, .begin other ∉ steps)
    (accepted : run? plan state steps = some final)
    (pass : Nat) :
    final.ticket? pass = state.ticket? pass := by
  induction steps generalizing state with
  | nil =>
      simp only [run?, Option.some.injEq] at accepted
      rw [accepted]
  | cons step rest inductionHypothesis =>
      obtain ⟨next, taken, later⟩ := run?_cons_eq_some accepted
      have noLaterBegin : ∀ other, .begin other ∉ rest :=
        fun other member => noBegin other (List.mem_cons_of_mem step member)
      rw [inductionHypothesis noLaterBegin later]
      rcases ticket?_step_cases taken with ⟨begun, isBegin, -⟩ | ⟨-, -, same⟩
      · exact (noBegin begun (by simp [isBegin])).elim
      · exact same pass

/-- A pass has its ticket from its beginning, and the number of the ticket counts
the beginnings up to there. -/
theorem exists_begin
    {start : Session}
    {state : Interleaving}
    {steps : List SessionStep}
    {pass : Nat}
    {ticket : Ticket}
    (accepted : run? plan (.initial start) steps = some state)
    (holds : state.ticket? pass = some ticket) :
    ∃ earlier between,
      steps = earlier ++ .begin pass :: between ∧
        ticket.number =
          start.sequence + earlier.countP SessionStep.isBegin + 1 := by
  refine run?_induction
    (motive := fun steps state =>
      state.ticket? pass = some ticket →
      ∃ earlier between,
        steps = earlier ++ .begin pass :: between ∧
          ticket.number =
            start.sequence + earlier.countP SessionStep.isBegin + 1)
    accepted ?_ ?_ holds
  · intro held
    simp [ticket?, initial, PassPhase.ticket?] at held
  · intro taken previous step next reached isNext before held
    have stillHeld
        (heldBefore : previous.ticket? pass = some ticket) :
        ∃ earlier between,
          taken ++ [step] = earlier ++ .begin pass :: between ∧
            ticket.number =
              start.sequence + earlier.countP SessionStep.isBegin + 1 := by
      obtain ⟨earlier, between, shape, counted⟩ := before heldBefore
      exact ⟨earlier, between ++ [step], by simp [shape], counted⟩
    rcases ticket?_step_cases isNext with
      ⟨begun, isBegin, -, -, given, others⟩ | ⟨-, -, same⟩
    · by_cases samePass : pass = begun
      · subst begun
        rw [held, Option.some.injEq] at given
        refine ⟨taken, [], by simp [isBegin], ?_⟩
        have counted := sequence_run? reached
        simp only [initial] at counted
        rw [given, counted]
      · exact stillHeld (by rw [← others pass samePass, held])
    · exact stillHeld (by rw [← same pass, held])

/-- The steps hold an end of the pass with the ticket, which is the latest one
there. -/
def WritesIn
    (plan : PassPlan)
    (state : Interleaving)
    (steps : List SessionStep)
    (pass : Nat)
    (ticket : Ticket) : Prop :=
  ∃ middle rest there draft,
    steps = middle ++ .commit pass :: rest ∧
      run? plan state middle = some there ∧
      there.phase pass = .drafted ticket draft ∧
      there.session.isLatest ticket = true

theorem WritesIn.concat
    {state : Interleaving}
    {steps : List SessionStep}
    {pass : Nat}
    {ticket : Ticket}
    (writes : WritesIn plan state steps pass ticket)
    (step : SessionStep) :
    WritesIn plan state (steps ++ [step]) pass ticket := by
  obtain ⟨middle, rest, there, draft, shape, found⟩ := writes
  exact ⟨middle, rest ++ [step], there, draft, by simp [shape], found⟩

/-- What is kept after an invalidation was written by a pass that ended since. -/
theorem writesIn_of_kept
    {start : Session}
    {state final : Interleaving}
    {steps : List SessionStep}
    (accepted : run? plan state.invalidate steps = some final)
    {kept : KeptBinding}
    (isKept : kept ∈ SessionWrite.kept start final.writes) :
    ∃ pass ticket,
      kept.writer = some ticket ∧
        WritesIn plan state.invalidate steps pass ticket := by
  refine run?_induction
    (motive := fun steps final =>
      kept ∈ SessionWrite.kept start final.writes →
      ∃ pass ticket,
        kept.writer = some ticket ∧
          WritesIn plan state.invalidate steps pass ticket)
    accepted ?_ ?_ isKept
  · intro isKept
    simp [invalidate, SessionWrite.kept] at isKept
  · intro taken previous step next reached isNext before isKept
    have keptBefore
        (inPrevious : kept ∈ SessionWrite.kept start previous.writes) :
        ∃ pass ticket,
          kept.writer = some ticket ∧
            WritesIn plan state.invalidate (taken ++ [step]) pass ticket := by
      obtain ⟨pass, ticket, isWriter, writes⟩ := before inPrevious
      exact ⟨pass, ticket, isWriter, writes.concat step⟩
    rcases step?_cases isNext with
      ⟨pass, rfl, phase, rfl⟩ | ⟨pass, ticket, rfl, phase, rfl⟩ |
        ⟨pass, ticket, draft, rfl, phase, latest, rfl⟩ |
        ⟨pass, ticket, draft, rfl, phase, superseded, rfl⟩ | ⟨rfl, rfl⟩
    · exact keptBefore isKept
    · exact keptBefore isKept
    · rw [SessionWrite.kept] at isKept
      rcases Keyed.mem_of_mem_putAll isKept with isOld | isNew
      · split at isOld
        · exact keptBefore isOld
        · cases isOld
      · obtain ⟨binding, -, rfl⟩ := List.mem_map.mp isNew
        exact ⟨pass, ticket, rfl, taken, [], previous, draft, rfl, reached,
          phase, latest⟩
    · exact keptBefore isKept
    · simp [invalidate, SessionWrite.kept] at isKept

/-- A pass that writes after a moment with a ticket from before it is under way
at that moment, and no other pass begins while it is. -/
theorem straddles_of_writesIn
    {start : Session}
    {there : Interleaving}
    {before after : List SessionStep}
    (reached : run? plan (.initial start) before = some there)
    {pass : Nat}
    {ticket : Ticket}
    (writes : WritesIn plan there.invalidate after pass ticket)
    (isOlder : ticket.number ≤ there.session.sequence) :
    SessionStep.Straddles before after pass := by
  obtain ⟨middle, rest, state, draft, shape, run, phase, latest⟩ := writes
  have isSequence : state.session.sequence = ticket.number := by
    simpa [Session.isLatest] using latest
  have sameSequence :
      there.invalidate.session.sequence = there.session.sequence :=
    rfl
  have sinceThen := sequence_run? run
  have noBegin : ∀ other, .begin other ∉ middle :=
    SessionStep.countP_isBegin_eq_zero.mp (by omega)
  have holds : there.ticket? pass = some ticket := by
    have atEnd : state.ticket? pass = some ticket := by
      simp [ticket?, phase, PassPhase.ticket?]
    have unchanged := ticket?_run?_of_no_begin noBegin run pass
    rw [atEnd] at unchanged
    exact unchanged.symm
  obtain ⟨earlier, between, begins, counted⟩ := exists_begin reached holds
  have upToThere := sequence_run? reached
  rw [begins, List.countP_append, List.countP_cons_of_pos rfl] at upToThere
  simp only [initial] at upToThere
  have noneBetween : ∀ other, .begin other ∉ between :=
    SessionStep.countP_isBegin_eq_zero.mp (by omega)
  refine ⟨earlier, between, middle, rest, begins, shape, ?_⟩
  intro other member
  rcases List.mem_append.mp member with inBetween | inMiddle
  · exact noneBetween other inBetween
  · exact noBegin other inMiddle

/-- A pass that is under way at an invalidation and that no other pass overtakes
writes what it found, with a ticket from before. -/
theorem stores_of_straddles
    {start : Session}
    {there final : Interleaving}
    {before after : List SessionStep}
    (reached : run? plan (.initial start) before = some there)
    (accepted : run? plan there.invalidate after = some final)
    {pass : Nat}
    (straddles : SessionStep.Straddles before after pass) :
    ∃ middle rest state next ticket draft,
      after = middle ++ .commit pass :: rest ∧
        run? plan there.invalidate middle = some state ∧
        state.step? plan (.commit pass) = some next ∧
        state.phase pass = .drafted ticket draft ∧
        ticket.number ≤ there.session.sequence ∧
        next.session =
          state.session.store draft.signature draft.environment := by
  obtain ⟨earlier, between, middle, rest, begins, shape, noBegin⟩ := straddles
  rw [shape] at accepted
  obtain ⟨state, run, later⟩ := run?_append_eq_some accepted
  obtain ⟨next, ending, -⟩ := run?_cons_eq_some later
  have orderly : TicketsOrderly there :=
    run?_preserves TicketsOrderly.step (ticketsOrderly_initial start) reached
  rw [begins] at reached
  obtain ⟨first, -, fromFirst⟩ := run?_append_eq_some reached
  obtain ⟨begun, beginning, toThere⟩ := run?_cons_eq_some fromFirst
  have underWay :
      run? plan begun (between ++ .invalidate :: middle) = some state := by
    simp [run?_append, toThere, run?, step?, run]
  obtain ⟨result, ended, completed, -⟩ :=
    commit_after_begin beginning underWay ending
  have notOvertaken : ∃ items, result.outcome = .completed items := by
    apply completed.mpr
    intro other member
    exact noBegin other (by simpa using member)
  obtain ⟨own, given⟩ : ∃ own, begun.ticket? pass = some own := by
    rcases ticket?_step_cases beginning with
      ⟨other, same, -, -, given, -⟩ | ⟨notBegin, -⟩
    · cases same
      exact ⟨_, given⟩
    · simp [SessionStep.isBegin] at notBegin
  have heldThere : there.ticket? pass = some own :=
    run?_preserves ticket?_step given toThere
  have heldAtEnd : state.ticket? pass = some own :=
    run?_preserves ticket?_step given underWay
  rcases step?_cases ending with
    ⟨other, wrong, -⟩ | ⟨other, ticket, wrong, -⟩ |
      ⟨other, ticket, draft, same, phase, latest, rfl⟩ |
      ⟨other, ticket, draft, same, phase, superseded, rfl⟩ | ⟨wrong, -⟩
  · cases wrong
  · cases wrong
  · cases same
    simp only [ticket?, phase, PassPhase.ticket?, Option.some.injEq] at heldAtEnd
    subst ticket
    exact ⟨middle, rest, state, _, own, draft, shape, run, ending, phase,
      orderly.issued heldThere, rfl⟩
  · cases same
    simp only [result?, setPhase_same, PassPhase.result?,
      Option.some.injEq] at ended
    subst result
    obtain ⟨items, wrong⟩ := notOvertaken
    cases wrong
  · cases wrong

/--
What comes back after an invalidation, for every interleaving:

* what the session keeps at the end was written by passes that began after the
  invalidation, or by a pass that was under way then and was never overtaken;
* such a pass does write when it ends, with a ticket from before the
  invalidation.
-/
theorem invalidation_final_unless_straddled
    (plan : PassPlan)
    (start : Session)
    (before after : List SessionStep)
    (final : Interleaving)
    (accepted :
      run? plan (.initial start) (before ++ .invalidate :: after) =
        some final) :
    ∃ there,
      run? plan (.initial start) before = some there ∧
        (SessionWrite.kept start final.writes).map KeptBinding.binding =
          final.session.bindings ∧
        (∀ kept ∈ SessionWrite.kept start final.writes,
          ∃ pass ticket,
            kept.writer = some ticket ∧
              final.ticket? pass = some ticket ∧
              (there.session.sequence < ticket.number ∨
                SessionStep.Straddles before after pass)) ∧
        ∀ pass,
          SessionStep.Straddles before after pass →
          ∃ middle rest state next ticket draft,
            after = middle ++ .commit pass :: rest ∧
              run? plan there.invalidate middle = some state ∧
              state.step? plan (.commit pass) = some next ∧
              state.phase pass = .drafted ticket draft ∧
              ticket.number ≤ there.session.sequence ∧
              next.session =
                state.session.store draft.signature draft.environment := by
  obtain ⟨there, reached, fromThere⟩ := run?_append_eq_some accepted
  obtain ⟨emptied, invalidated, rest⟩ := run?_cons_eq_some fromThere
  simp only [step?, Option.some.injEq] at invalidated
  subst emptied
  have replayed : KeepsReplayed start final := by
    have initially : KeepsReplayed start (.initial start) :=
      ⟨rfl, rfl⟩
    exact run?_preserves KeepsReplayed.step initially accepted
  refine ⟨there, reached, ?_, ?_, ?_⟩
  · rw [SessionWrite.binding_kept, replayed.2]
  · intro kept isKept
    obtain ⟨pass, ticket, isWriter, writes⟩ := writesIn_of_kept rest isKept
    refine ⟨pass, ticket, isWriter, ?_, ?_⟩
    · obtain ⟨middle, behind, state, draft, shape, run, phase, -⟩ := writes
      rw [shape] at rest
      obtain ⟨same, sameRun, later⟩ := run?_append_eq_some rest
      rw [run, Option.some.injEq] at sameRun
      subst same
      exact run?_preserves ticket?_step
        (by simp [ticket?, phase, PassPhase.ticket?]) later
    · by_cases isOlder : ticket.number ≤ there.session.sequence
      · exact .inr (straddles_of_writesIn reached writes isOlder)
      · exact .inl (Nat.not_le.mp isOlder)
  · intro pass straddles
    exact stores_of_straddles reached rest straddles

/--
A pass under way at an invalidation, which another one overtakes: what is kept
comes from the other one, although the first one ends after the invalidation too.
-/
theorem invalidation_final_unless_straddled_overtaken :
    let plan := Engine.standalone.plan fun _ => ⟨"load aragonos", ⟨1, 0⟩⟩
    let before : List SessionStep := [.begin 0, .read 0]
    let after : List SessionStep := [.begin 1, .read 1, .commit 0, .commit 1]
    ∃ final,
      run? plan (.initial .initial) (before ++ .invalidate :: after) =
          some final ∧
        (SessionWrite.kept .initial final.writes).length = 1 ∧
        ∀ kept ∈ SessionWrite.kept .initial final.writes,
          ∃ ticket, kept.writer = some ticket ∧ 1 < ticket.number := by
  intro plan before after
  have noneStraddles (pass : Nat) : ¬ SessionStep.Straddles before after pass := by
    rintro ⟨earlier, between, middle, rest, -, shape, noBegin⟩
    cases middle with
    | nil =>
        simp [after] at shape
    | cons step later =>
        simp only [after, List.cons_append, List.cons.injEq] at shape
        exact noBegin 1 (by simp [← shape.1])
  refine ⟨_, rfl, by decide +kernel, ?_⟩
  obtain ⟨there, reached, -, writers, -⟩ :=
    invalidation_final_unless_straddled plan .initial before after _ rfl
  have issued : there.session.sequence = 1 := sequence_run? reached
  intro kept isKept
  obtain ⟨pass, ticket, isWriter, -, later | straddles⟩ := writers kept isKept
  · exact ⟨ticket, isWriter, issued ▸ later⟩
  · exact (noneStraddles pass straddles).elim

/-- An invalidation is not final: the pass under way writes its module behind it,
with the only ticket issued before it, and the session serves the module again. -/
theorem older_pass_writes_after_invalidation :
    let plan := Engine.standalone.plan fun _ => ⟨"load aragonos", ⟨1, 0⟩⟩
    let before : List SessionStep := [.begin 0, .read 0]
    let after : List SessionStep := [.commit 0]
    ∃ there final,
      run? plan (.initial .initial) before = some there ∧
        there.session.sequence = 1 ∧
        run? plan (.initial .initial) (before ++ .invalidate :: after) =
          some final ∧
        (SessionWrite.kept .initial final.writes).map KeptBinding.writer =
          [some ⟨1⟩] ∧
        (final.session.cached [⟨"aragonos", none⟩]).map Prod.fst =
          ["aragonos"] := by
  refine ⟨_, _, rfl, rfl, rfl, ?_, ?_⟩
  · decide +kernel
  · decide +kernel

end Interleaving

end ScriptCompletion
