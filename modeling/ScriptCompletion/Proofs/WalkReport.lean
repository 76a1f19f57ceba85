import ScriptCompletion.Proofs.FaithfulTrees
import ScriptCompletion.Proofs.LexicalScopes

namespace ScriptCompletion

/-!
# What a walk reports

The walk visits the commands above the line of the cursor, each once and in source
order.  One of three things becomes of a visited command: its evaluator ran to its
end, or it failed, or there was nothing to evaluate.  The report counts the first and
the last, and it lists the failures.  A command that belongs to no module is listed
too, although there was nothing to evaluate.
-/

/-- Whether a command belongs to no module. -/
def Failure.isResolution : Failure → Bool
  | .resolution _ =>
      true
  | _ =>
      false

/-- Whether the evaluator of a command failed. -/
def Failure.isEvaluation : Failure → Bool
  | .evaluation _ =>
      true
  | _ =>
      false

namespace Visit

/-- Whether the evaluator of the command failed. -/
def isFailed (visit : Visit) : Bool :=
  (visit.failure?.map fun failed => failed.failure.isEvaluation).getD false

/-- The command was evaluated, or there was nothing to evaluate, or its evaluation
failed. -/
theorem counted_once (visit : Visit) :
    (if visit.outcome.isEvaluated then 1 else 0) +
        (if visit.outcome.isSkipped then 1 else 0) +
        (if visit.isFailed then 1 else 0) =
      1 := by
  unfold isFailed failure?
  cases visit.outcome <;> rfl

/-- What is skipped fails only by belonging to no module, and nothing else fails
that way. -/
theorem filter_isResolution_failure? (visit : Visit) :
    visit.failure?.filter (fun failed => failed.failure.isResolution) =
      if visit.outcome.isSkipped then visit.failure? else none := by
  unfold failure?
  cases visit.outcome <;> rfl

/-- A failure is that of the visited command. -/
theorem of_mem_failure?
    {visit : Visit}
    {failed : CommandFailure}
    (fails : visit.failure? = some failed) :
    failed.command = visit.command.qualifiedName ∧
      failed.line = visit.command.startLine := by
  obtain ⟨failure, -, rfl⟩ := Option.map_eq_some_iff.mp fails
  exact ⟨rfl, rfl⟩

end Visit

namespace Journey

/-- Every visit is counted once. -/
theorem report_accounts (journey : Journey) :
    journey.report.evaluated + journey.report.skipped +
        journey.report.failures.countP (fun failed =>
          failed.failure.isEvaluation) =
      journey.visits.length := by
  have failed :
      journey.report.failures.countP (fun failed =>
          failed.failure.isEvaluation) =
        journey.visits.countP Visit.isFailed :=
    List.countP_filterMap
  rw [failed]
  simp only [report]
  induction journey.visits with
  | nil =>
      rfl
  | cons visit rest inductionHypothesis =>
      have once := visit.counted_once
      simp only [List.countP_cons, List.length_cons, ← inductionHypothesis]
      omega

/-- The commands whose visits failed, in source order. -/
def failing (journey : Journey) : List Script.Command :=
  (journey.visits.filter fun visit => visit.failure?.isSome).map Visit.command

theorem failing_sublist (journey : Journey) :
    journey.failing.Sublist (journey.visits.map Visit.command) :=
  List.filter_sublist.map Visit.command

/-- The failures are those of the failing commands, in the same order. -/
theorem failures_eq_failing (journey : Journey) :
    journey.report.failures.map (fun failed => (failed.command, failed.line)) =
      journey.failing.map fun command =>
        (command.qualifiedName, command.startLine) := by
  simp only [report, failing]
  induction journey.visits with
  | nil =>
      rfl
  | cons visit rest inductionHypothesis =>
      cases fails : visit.failure? with
      | none =>
          simpa [fails] using inductionHypothesis
      | some failed =>
          obtain ⟨isName, isLine⟩ := Visit.of_mem_failure? fails
          simpa [fails, isName, isLine] using inductionHypothesis

/-- The commands that belong to no module are among the skipped ones. -/
theorem resolution_failures_eq (journey : Journey) :
    (journey.report.failures.filter fun failed =>
        failed.failure.isResolution) =
      (journey.visits.filter fun visit => visit.outcome.isSkipped).filterMap
        Visit.failure? := by
  simp only [report, List.filter_filterMap, List.filterMap_filter,
    Visit.filter_isResolution_failure?]

end Journey

/--
The walk through a script that was read from a text visits the commands above the
line of the cursor, each once, in source order, and no other.  A command is visited
in the scopes that the walk has left behind the visits before it, and its outcome is
what these scopes yield.  All visits are accounted for: some commands were evaluated,
some were skipped, and the evaluation of the others failed.  The commands that belong
to no module are among the skipped ones, and failures are listed in source order.
-/
theorem Evaluator.walk_visits_above_and_accounts
    (evaluator : Evaluator)
    (text : String)
    (cursor : Position)
    (scopes : Scopes) :
    let commands := (Script.parse text).commands
    let above := Script.allAbove commands cursor
    let journey := evaluator.walk commands cursor scopes
    let report := journey.report
    let skipped := journey.visits.filter fun visit => visit.outcome.isSkipped
    journey.visits.map Visit.command = above ∧
      above.Nodup ∧
      (∀ earlier visit later,
        journey.visits = earlier ++ visit :: later →
        ∃ before,
          let there :=
            before.foldl (Walk.follow evaluator cursor) (.start scopes)
          before ++ [.visit visit.command] <+: Script.traceAll commands ∧
            there.visits.reverse = earlier ∧
            visit = evaluator.visit there.scopes visit.command ∧
            evaluator.Yields there.scopes visit.command visit.outcome) ∧
      report.evaluated + report.skipped +
          (report.failures.countP fun failed => failed.failure.isEvaluation) =
        above.length ∧
      report.skipped = skipped.length ∧
      (report.failures.filter fun failed => failed.failure.isResolution) =
        skipped.filterMap Visit.failure? ∧
      journey.failing.Sublist above ∧
      journey.failing.Pairwise Script.Command.StartsBefore ∧
      report.failures.map (fun failed => (failed.command, failed.line)) =
        journey.failing.map fun command =>
          (command.qualifiedName, command.startLine) := by
  intro commands above journey report skipped
  have visited : journey.visits.map Visit.command = above :=
    commands_walk evaluator text cursor scopes
  have inOrder : above.Pairwise Script.Command.StartsBefore :=
    (Script.flatten_parse_startsBefore text).filter _
  have failing : journey.failing.Sublist above :=
    visited ▸ journey.failing_sublist
  refine ⟨visited, (Script.nodup_flatten_parse text).filter _,
    fun _ _ _ => visit_of_walk_split, ?_, List.countP_eq_length_filter,
    journey.resolution_failures_eq, failing,
    inOrder.sublist failing, journey.failures_eq_failing⟩
  rw [← visited, List.length_map]
  exact journey.report_accounts

end ScriptCompletion
