import ScriptCompletion.Proofs.CacheTransparency

namespace ScriptCompletion

/-!
# Scheduled passes are interleaved

Passes with start times are run in the order of time.  Every such run is an
interleaving: beginning a pass is a beginning and a reading, and ending one is a
commit.  So what holds of all interleavings holds of scheduled passes.
-/

namespace Interleaving

/--
An interleaving that has come as far as a run: the same session, the same drafts
and the same results.  Passes that the run has not begun are still waiting.
-/
structure Mirrors
    (begun : List Nat)
    (run : Run)
    (state : Interleaving) : Prop where
  session : state.session = run.session
  running :
    ∀ pass ∈ run.running,
      state.phase pass.number = .drafted pass.ticket pass.draft
  results : ∀ number, state.result? number = run.result? number
  waiting :
    ∀ number,
      number ∉ begun →
      state.phase number = .waiting
  started : ∀ pass ∈ run.running, pass.number ∈ begun
  distinct : (run.running.map RunningPass.number).Nodup

theorem mirrors_initial (session : Session) :
    Mirrors [] (.initial session) (.initial session) where
  session := rfl
  running := by
    intro pass member
    cases member
  results := by
    intro number
    rfl
  waiting := by
    intro number fresh
    rfl
  started := by
    intro pass member
    cases member
  distinct := .nil

namespace Mirrors

variable
  {begun : List Nat}
  {run : Run}
  {state : Interleaving}

/-- Ending a pass is a commit. -/
theorem finish
    (mirrors : Mirrors begun run state)
    {pass : RunningPass}
    (isRunning : pass ∈ run.running)
    (plan : PassPlan) :
    ∃ next,
      state.step? plan (.commit pass.number) = some next ∧
        Mirrors begun (run.finish pass) next := by
  have drafted := mirrors.running pass isRunning
  refine ⟨state.commit pass.number pass.ticket pass.draft, ?_, ?_⟩
  · simp [step?, drafted]
  · have stillRunning
        {other : RunningPass}
        (member : other ∈ (run.finish pass).running) :
        other ∈ run.running ∧ other.number ≠ pass.number := by
      simpa [Run.finish] using member
    refine
      { session := ?_
        running := ?_
        results := ?_
        waiting := ?_
        started := ?_
        distinct := ?_ }
    · simp only [commit, Run.finish, mirrors.session]
    · intro other member
      obtain ⟨wasRunning, different⟩ := stillRunning member
      simp only [commit, setPhase_other _ different]
      exact mirrors.running other wasRunning
    · intro number
      by_cases sameNumber : number = pass.number
      · subst number
        simp [commit, result?, PassPhase.result?, Run.result?, Run.finish,
          mirrors.session]
      · have same := mirrors.results number
        have otherNumber : (number == pass.number) = false := by
          simpa using sameNumber
        simpa [commit, result?, setPhase_other _ sameNumber, Run.result?,
          Run.finish, List.lookup_cons, otherNumber] using same
    · intro number fresh
      have different : number ≠ pass.number := by
        rintro rfl
        exact fresh (mirrors.started pass isRunning)
      simp only [commit, setPhase_other _ different]
      exact mirrors.waiting number fresh
    · intro other member
      exact mirrors.started other (stillRunning member).1
    · exact mirrors.distinct.sublist (List.filter_sublist.map _)

/-- Ending several passes, in any order, is as many commits. -/
theorem foldl_finish
    (mirrors : Mirrors begun run state)
    {passes : List RunningPass}
    (areRunning : ∀ pass ∈ passes, pass ∈ run.running)
    (distinct : (passes.map RunningPass.number).Nodup)
    (plan : PassPlan) :
    ∃ steps next,
      run? plan state steps = some next ∧
        Mirrors begun (passes.foldl Run.finish run) next := by
  induction passes generalizing run state with
  | nil =>
      exact ⟨[], state, rfl, mirrors⟩
  | cons pass rest inductionHypothesis =>
      rw [List.map_cons, List.nodup_cons] at distinct
      obtain ⟨middle, taken, mirrorsMiddle⟩ :=
        mirrors.finish (areRunning pass (by simp)) plan
      have stillRunning :
          ∀ other ∈ rest, other ∈ (run.finish pass).running := by
        intro other member
        have different : other.number ≠ pass.number := by
          intro same
          exact distinct.1 (List.mem_map.mpr ⟨other, member, same⟩)
        simpa [Run.finish, different] using
          areRunning other (List.mem_cons_of_mem pass member)
      obtain ⟨steps, next, accepted, mirrorsNext⟩ :=
        inductionHypothesis mirrorsMiddle stillRunning distinct.2
      refine ⟨.commit pass.number :: steps, next, ?_, mirrorsNext⟩
      simp only [run?, taken, accepted]

/-- Ending some of the running passes, the first one first. -/
theorem finishAll
    (mirrors : Mirrors begun run state)
    {passes : List RunningPass}
    (areRunning : passes.Sublist run.running)
    (plan : PassPlan) :
    ∃ steps next,
      run? plan state steps = some next ∧
        Mirrors begun (run.finishAll passes) next := by
  have sorted :=
    List.mergeSort_perm passes fun first second =>
      decide (first.stop ≤ second.stop)
  refine mirrors.foldl_finish ?_ ?_ plan
  · intro pass member
    exact areRunning.subset (sorted.mem_iff.mp member)
  · exact (sorted.map RunningPass.number).nodup_iff.mpr
      (mirrors.distinct.sublist (areRunning.map _))

/-- Beginning a pass is a beginning and a reading. -/
theorem begin
    (mirrors : Mirrors begun run state)
    {number : Nat}
    (fresh : number ∉ begun)
    (engine : Engine)
    (requests : Nat → PassRequest)
    (moment : Nat) :
    ∃ next,
      Interleaving.run? (engine.plan requests) state
          [.begin number, .read number] =
        some next ∧
      Mirrors (number :: begun)
        (run.begin engine number moment (requests number)) next := by
  have isWaiting := mirrors.waiting number fresh
  have notRunning
      {pass : RunningPass}
      (member : pass ∈ run.running) :
      pass.number ≠ number := by
    rintro rfl
    exact fresh (mirrors.started pass member)
  refine
    ⟨(state.begin number).read (engine.plan requests) number
      state.session.begin.1, ?_, ?_⟩
  · simp [run?, step?, isWaiting, Interleaving.begin]
  · have isRunning
        {pass : RunningPass}
        (member :
          pass ∈ (run.begin engine number moment (requests number)).running) :
        pass ∈ run.running ∨
          (pass.number = number ∧
            pass.ticket = run.session.begin.1 ∧
            pass.draft = engine.plan requests number run.session.begin.2) := by
      simp only [Run.begin, List.mem_append, List.mem_singleton] at member
      rcases member with isOld | isNew
      · exact .inl isOld
      · subst pass
        exact .inr ⟨rfl, rfl, rfl⟩
    refine
      { session := ?_
        running := ?_
        results := ?_
        waiting := ?_
        started := ?_
        distinct := ?_ }
    · simp only [read, Interleaving.begin, Run.begin, mirrors.session]
    · intro pass member
      rcases isRunning member with isOld | ⟨sameNumber, ticket, draft⟩
      · have different := notRunning isOld
        simp only [read, Interleaving.begin, setPhase_other _ different]
        exact mirrors.running pass isOld
      · rw [sameNumber, ticket, draft]
        simp [read, Interleaving.begin, mirrors.session]
    · intro other
      have same := mirrors.results other
      have sameResults :
          (run.begin engine number moment (requests number)).result? other =
            run.result? other :=
        rfl
      rw [sameResults]
      by_cases sameNumber : other = number
      · subst other
        rw [result?, isWaiting] at same
        simpa [result?, read, PassPhase.result?] using same
      · simpa [result?, read, Interleaving.begin,
          setPhase_other _ sameNumber] using same
    · intro other notBegun
      rw [List.mem_cons, not_or] at notBegun
      simp only [read, Interleaving.begin, setPhase_other _ notBegun.1]
      exact mirrors.waiting other notBegun.2
    · intro pass member
      rcases isRunning member with isOld | ⟨sameNumber, -⟩
      · exact List.mem_cons_of_mem number (mirrors.started pass isOld)
      · simp [sameNumber]
    · simp only [Run.begin, List.map_append, List.map_cons, List.map_nil]
      rw [List.nodup_append]
      refine ⟨mirrors.distinct, by simp, ?_⟩
      intro old isOld new isNew
      obtain ⟨pass, member, rfl⟩ := List.mem_map.mp isOld
      rw [List.mem_singleton] at isNew
      rw [isNew]
      exact notRunning member

/-- Passes that begin one after another, those that end in between ended. -/
theorem foldl_beginScheduled
    (mirrors : Mirrors begun run state)
    {engine : Engine}
    {requests : Nat → PassRequest}
    {passes : List ScheduledPass}
    (asked :
      ∀ scheduled ∈ passes,
        requests scheduled.number = scheduled.request)
    (fresh : ∀ scheduled ∈ passes, scheduled.number ∉ begun)
    (distinct : (passes.map ScheduledPass.number).Nodup) :
    ∃ steps next begunNext,
      run? (engine.plan requests) state steps = some next ∧
        Mirrors begunNext (passes.foldl engine.beginScheduled run) next := by
  induction passes generalizing begun run state with
  | nil =>
      exact ⟨[], state, begun, rfl, mirrors⟩
  | cons scheduled rest inductionHypothesis =>
      rw [List.map_cons, List.nodup_cons] at distinct
      obtain ⟨endings, advanced, endingsTaken, mirrorsAdvanced⟩ :=
        mirrors.finishAll
          (List.filter_sublist
            (p := fun pass : RunningPass => pass.stop ≤ scheduled.start))
          (engine.plan requests)
      obtain ⟨started, beginningTaken, mirrorsStarted⟩ :=
        mirrorsAdvanced.begin (fresh scheduled (by simp)) engine requests
          scheduled.start
      rw [asked scheduled (by simp)] at mirrorsStarted
      have stillFresh :
          ∀ other ∈ rest, other.number ∉ scheduled.number :: begun := by
        intro other member
        rw [List.mem_cons, not_or]
        refine ⟨?_, fresh other (List.mem_cons_of_mem scheduled member)⟩
        intro same
        exact distinct.1 (List.mem_map.mpr ⟨other, member, same⟩)
      obtain ⟨later, next, begunNext, laterTaken, mirrorsNext⟩ :=
        inductionHypothesis mirrorsStarted
          (fun other member => asked other (List.mem_cons_of_mem _ member))
          stillFresh distinct.2
      refine
        ⟨endings ++ ([.begin scheduled.number, .read scheduled.number] ++
          later), next, begunNext, ?_, mirrorsNext⟩
      rw [run?_append, endingsTaken, Option.bind_some, run?_append,
        beginningTaken, Option.bind_some, laterTaken]

end Mirrors

end Interleaving

namespace Engine

/-- Every run of scheduled passes is an interleaving, which leaves the session
and the results of the run. -/
theorem runScheduled_interleaves
    (engine : Engine)
    (session : Session)
    {requests : Nat → PassRequest}
    {passes : List ScheduledPass}
    (asked :
      ∀ scheduled ∈ passes,
        requests scheduled.number = scheduled.request)
    (distinct : (passes.map ScheduledPass.number).Nodup) :
    let run := engine.runScheduled session passes
    ∃ steps final,
      Interleaving.run? (engine.plan requests) (.initial session) steps =
          some final ∧
        final.session = run.session ∧
        ∀ number, final.result? number = run.result? number := by
  have sorted :=
    List.mergeSort_perm passes fun first second =>
      decide (first.start ≤ second.start)
  obtain ⟨first, middle, begun, firstTaken, mirrorsMiddle⟩ :=
    (Interleaving.mirrors_initial session).foldl_beginScheduled
      (fun scheduled member => asked scheduled (sorted.mem_iff.mp member))
      (fun _ _ => List.not_mem_nil)
      ((sorted.map ScheduledPass.number).nodup_iff.mpr distinct)
  obtain ⟨last, final, lastTaken, mirrorsFinal⟩ :=
    mirrorsMiddle.finishAll (List.Sublist.refl _) (engine.plan requests)
  refine ⟨first ++ last, final, ?_, mirrorsFinal.session,
    mirrorsFinal.results⟩
  rw [Interleaving.run?_append, firstTaken, Option.bind_some, lastTaken]

/-- Scheduled passes that are completed show what they would show alone. -/
theorem completed_runScheduled
    {engine : Engine}
    (namesModules : engine.registry.NamesModules)
    {requests : Nat → PassRequest}
    {passes : List ScheduledPass}
    (asked :
      ∀ scheduled ∈ passes,
        requests scheduled.number = scheduled.request)
    (distinct : (passes.map ScheduledPass.number).Nodup)
    {number : Nat}
    {result : PassResult}
    {items : List Suggestion.Item}
    (ended :
      (engine.runScheduled .initial passes).result? number = some result)
    (completed : result.outcome = .completed items) :
    let alone := (engine.complete .initial (requests number)).1
    alone.outcome = .completed items ∧
      result.report.problems = alone.report.problems ∧
      result.report.loadFailures = alone.report.loadFailures ∧
      result.report.walk = alone.report.walk := by
  obtain ⟨steps, final, accepted, -, sameResults⟩ :=
    engine.runScheduled_interleaves .initial asked distinct
  have transparent := Interleaving.Transparent.run? namesModules accepted
  exact (transparent.shows ((sameResults number).trans ended)).alone completed

end Engine

end ScriptCompletion
