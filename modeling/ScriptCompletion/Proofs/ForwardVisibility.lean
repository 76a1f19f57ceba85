import ScriptCompletion.Engine.Schedule
import ScriptCompletion.Proofs.EarlyLines
import ScriptCompletion.Proofs.HeadingEvaluation
import ScriptCompletion.Proofs.LoadsAbove
import ScriptCompletion.Proofs.CacheTransparency

namespace ScriptCompletion

open Script (Event)

/-!
# Nothing behind the cursor line can be seen

The outline of a script begins with what the lines up to the cursor make of it.
Loading, the walk and the suggestions depend on this beginning alone: requests
behind the line load nothing above it, the walk arrives at the first event behind
the line, and the command at the cursor is found before it.  For the walk this
takes evaluators that read headings: the block of a command above the cursor may
reach behind its line.
-/

section Early

variable
  {commands : List Script.Command}
  {early late : List Event}
  {line : Nat}

/-- Requests behind a line matter neither to what is loaded above it nor to what
fails there. -/
theorem Loader.load_of_early
    (loader : Loader)
    (cached : List (String × Module))
    (shape : Script.outline commands = early ++ late)
    (behind : ∀ event ∈ late, event.IsBehind line) :
    let requests := early.filterMap LoadRequest.ofEvent?
    (loader.load cached (LoadRequest.collect commands)).scopesBefore line =
        (loader.load cached requests).scopesBefore line ∧
      ((loader.load cached (LoadRequest.collect commands)).failures.filter
          fun failure => failure.isAbove line) =
        (loader.load cached requests).failures.filter fun failure =>
          failure.isAbove line := by
  rw [LoadRequest.collect_eq_outline, shape, List.filterMap_append]
  apply load_append
  intro request member
  obtain ⟨event, isLate, made⟩ := List.mem_filterMap.mp member
  have sameLine := LoadRequest.line_of_ofEvent? made
  unfold LoadRequest.isBefore
  cases starts : request.line with
  | none =>
      rfl
  | some start =>
      rw [starts] at sameLine
      have := behind event isLate start sameLine.symm
      simp only [decide_eq_false_iff_not]
      omega

/-- The command at a line is found before what is behind it. -/
theorem Script.commandAtLine_of_early
    (shape : outline commands = early ++ late)
    (behind : ∀ event ∈ late, event.IsBehind line) :
    (commandAtLine commands line).map Command.heading =
      ((headings early).filter fun command =>
        command.startLine == some line).getLast? := by
  have nothing :
      ((headings late).filter fun command =>
        command.startLine == some line) = [] := by
    rw [List.filter_eq_nil_iff]
    intro command member atLine
    obtain ⟨event, isLate, isCommand⟩ := List.mem_filterMap.mp member
    cases event with
    | close range closed =>
        cases isCommand
    | visit own =>
        cases isCommand
        have starts : command.startLine = some line := by
          simpa using atLine
        have := behind (.visit command) isLate line starts
        omega
  have split : headings (early ++ late) = headings early ++ headings late := by
    simp [headings]
  rw [commandAtLine_eq_outline, shape, split, List.filter_append, nothing,
    List.append_nil]

/-- The walk meets nothing behind the line of the cursor. -/
theorem Evaluator.walk_of_early
    (evaluator : Evaluator)
    {scopes : Scopes}
    (readsHeadings : AllModules Module.ReadsHeadings scopes.bindings)
    {cursor : Position}
    (shape : Script.outline commands = early ++ late)
    (behind : ∀ event ∈ late, event.IsBehind cursor.line) :
    let walk := early.foldl (Walk.follow evaluator cursor) (.start scopes)
    (evaluator.walk commands cursor scopes).heading =
      ⟨walk.scopes, walk.visits.reverse⟩ := by
  intro walk
  have reached :
      ∀ event ∈ late, event.isPassed cursor = false :=
    fun event member => Event.isPassed_of_isBehind (behind event member)
  have unchanged :
      (late.foldl (Walk.follow evaluator cursor) walk).scopes = walk.scopes ∧
        (late.foldl (Walk.follow evaluator cursor) walk).visits =
          walk.visits :=
    walk.foldl_follow_of_not_passed reached
  obtain ⟨sameScopes, sameVisits⟩ := unchanged
  rw [evaluator.walk_eq_outline readsHeadings, shape]
  simp only [List.foldl_append]
  rw [sameScopes, sameVisits]

end Early

namespace Suggestion

/-- The context with the heading of the command in its place. -/
def Context.heading : Context → Context
  | .commandName =>
      .commandName
  | .argument command index =>
      .argument command.heading index
  | .other =>
      .other

/-- What is suggested depends on the heading of the command. -/
theorem assemble_heading
    (context : Context)
    (scopes : Scopes)
    (range : Span) :
    assemble context.heading scopes range = assemble context scopes range := by
  cases context <;> rfl

theorem isTypingName_heading
    (command : Script.Command)
    (cursor : Position) :
    isTypingName command.heading cursor = isTypingName command cursor :=
  rfl

theorem argumentIndex_heading
    (command : Script.Command)
    (cursor : Position) :
    argumentIndex command.heading cursor = argumentIndex command cursor :=
  rfl

/-- What is being written depends on the heading of the command at the line. -/
theorem heading_classify
    {first second : List Script.Command}
    {cursor : Position}
    (sameEmpty : first.isEmpty = second.isEmpty)
    (sameCommand :
      (Script.commandAtLine first cursor.line).map Script.Command.heading =
        (Script.commandAtLine second cursor.line).map Script.Command.heading)
    (line : String) :
    (classify first line cursor).heading =
      (classify second line cursor).heading := by
  unfold classify
  rw [sameEmpty]
  split
  · rfl
  · cases firstFound : Script.commandAtLine first cursor.line with
    | none =>
        cases secondFound : Script.commandAtLine second cursor.line with
        | none =>
            rfl
        | some other =>
            simp [firstFound, secondFound] at sameCommand
    | some own =>
        cases secondFound : Script.commandAtLine second cursor.line with
        | none =>
            simp [firstFound, secondFound] at sameCommand
        | some other =>
            have sameHeading : own.heading = other.heading := by
              simpa [firstFound, secondFound] using sameCommand
            have sameTyping :
                isTypingName own.heading cursor =
                  isTypingName other.heading cursor := by
              rw [sameHeading]
            have sameIndex :
                argumentIndex own.heading cursor =
                  argumentIndex other.heading cursor := by
              rw [sameHeading]
            rw [isTypingName_heading, isTypingName_heading] at sameTyping
            rw [argumentIndex_heading, argumentIndex_heading] at sameIndex
            simp only [sameTyping]
            split
            · rfl
            · simp only [Context.heading, sameHeading, sameIndex]

end Suggestion

namespace Engine

/-- All modules in scope before the walk read headings. -/
theorem readsHeadings_scopes
    {engine : Engine}
    (readsHeadings : engine.registry.ReadsHeadings)
    (requests : List LoadRequest)
    (line : Nat) :
    AllModules Module.ReadsHeadings
      (engine.initialScopes.merge
        ((engine.loader.load [] requests).scopesBefore line)).bindings := by
  apply engine.readsHeadings_merge
  apply Loading.allModules_scopesOf
  intro loaded member
  exact Loader.readsHeadings_of_mem_modules readsHeadings
    (List.mem_filter.mp member).1

/-- Drafts over two readings with the same beginning up to the line of the cursor
show the same. -/
theorem draftOf_of_early
    {engine : Engine}
    (readsHeadings : engine.registry.ReadsHeadings)
    {first second : Script.Parsing}
    {cursor : Position}
    {early firstLate secondLate : List Event}
    (firstShape : Script.outline first.commands = early ++ firstLate)
    (secondShape : Script.outline second.commands = early ++ secondLate)
    (firstBehind : ∀ event ∈ firstLate, event.IsBehind cursor.line)
    (secondBehind : ∀ event ∈ secondLate, event.IsBehind cursor.line)
    (sameEmpty : first.commands.isEmpty = second.commands.isEmpty)
    (line : String) :
    let firstDraft := engine.draftOf [] first line cursor
    let secondDraft := engine.draftOf [] second line cursor
    firstDraft.items = secondDraft.items ∧
      firstDraft.report.loadFailures = secondDraft.report.loadFailures ∧
      firstDraft.report.walk = secondDraft.report.walk := by
  have firstLoading :=
    engine.loader.load_of_early [] firstShape firstBehind
  have secondLoading :=
    engine.loader.load_of_early [] secondShape secondBehind
  have sameScopes := firstLoading.1.trans secondLoading.1.symm
  have sameJourney :
      (engine.journey
          (engine.loader.load [] (LoadRequest.collect first.commands))
          first.commands cursor).heading =
        (engine.journey
          (engine.loader.load [] (LoadRequest.collect second.commands))
          second.commands cursor).heading := by
    unfold journey
    rw [sameScopes,
      engine.evaluator.walk_of_early
        (readsHeadings_scopes readsHeadings _ _) firstShape firstBehind,
      engine.evaluator.walk_of_early
        (readsHeadings_scopes readsHeadings _ _) secondShape secondBehind]
  have sameCommand :
      (Script.commandAtLine first.commands cursor.line).map
          Script.Command.heading =
        (Script.commandAtLine second.commands cursor.line).map
          Script.Command.heading := by
    rw [Script.commandAtLine_of_early firstShape firstBehind,
      Script.commandAtLine_of_early secondShape secondBehind]
  refine ⟨?_, firstLoading.2.trans secondLoading.2.symm, ?_⟩
  · have sameEnd := congrArg Journey.scopes sameJourney
    have sameContext :=
      Suggestion.heading_classify sameEmpty sameCommand line
    simp only [Journey.heading] at sameEnd
    simp only [draftOf]
    rw [sameEnd, ← Suggestion.assemble_heading, sameContext,
      Suggestion.assemble_heading]
  · have sameReport := congrArg Journey.report sameJourney
    rwa [Journey.report_heading, Journey.report_heading] at sameReport

/--
Nothing behind the cursor line can be seen.  Two texts with the same lines up to
and including that of the cursor, from both of which commands are read or from
neither, are completed alike on new sessions: with the same items, the same
failed loads and the same report of the walk, whatever stands on later lines.
-/
theorem no_forward_visibility
    (engine : Engine)
    (readsHeadings : engine.registry.ReadsHeadings)
    (first second : String)
    (cursor : Position)
    (agree : Text.AgreeThrough cursor.line first second)
    (sameEmpty :
      (Script.parse first).commands.isEmpty =
        (Script.parse second).commands.isEmpty) :
    let firstResult := (engine.complete .initial ⟨first, cursor⟩).1
    let secondResult := (engine.complete .initial ⟨second, cursor⟩).1
    firstResult.outcome = secondResult.outcome ∧
      firstResult.report.loadFailures = secondResult.report.loadFailures ∧
      firstResult.report.walk = secondResult.report.walk := by
  obtain ⟨early, firstLate, secondLate, firstShape, secondShape, firstBehind,
      secondBehind⟩ :=
    Script.outlines_of_agreeThrough agree sameEmpty
  have sameLine :
      Text.lineAt first cursor.line = Text.lineAt second cursor.line := by
    rw [Text.lineAt_eq_lineOr, Text.lineAt_eq_lineOr,
      agree cursor.line (Nat.le_refl _)]
  obtain ⟨sameItems, sameFailures, sameWalk⟩ :=
    draftOf_of_early readsHeadings firstShape secondShape firstBehind
      secondBehind sameEmpty (Text.lineAt first cursor.line)
  rw [complete_initial, complete_initial]
  simp only [draft, Session.cached_initial, ← sameLine]
  exact ⟨congrArg PassOutcome.completed sameItems, sameFailures, sameWalk⟩

/--
A cursor in a block that is closed behind it in one text; in the other a load
and a string without an end follow, and the block is never closed.
-/
theorem no_forward_visibility_unclosed :
    let first :=
      "load aragonos as a\na:connect 0x00 (\n  set $x 1\n  \n)\nset $y 2"
    let second :=
      "load aragonos as a\na:connect 0x00 (\n  set $x 1\n  \nload b\nset $z \"("
    let cursor : Position := ⟨3, 2⟩
    Text.AgreeThrough cursor.line first second ∧
      (Script.parse first).commands.isEmpty =
        (Script.parse second).commands.isEmpty ∧
      let firstResult := (standalone.complete .initial ⟨first, cursor⟩).1
      let secondResult := (standalone.complete .initial ⟨second, cursor⟩).1
      firstResult.outcome = secondResult.outcome ∧
        firstResult.report.loadFailures = secondResult.report.loadFailures ∧
        firstResult.report.walk = secondResult.report.walk := by
  intro first second cursor
  have agree : Text.AgreeThrough cursor.line first second := by
    decide +kernel
  have sameEmpty :
      (Script.parse first).commands.isEmpty =
        (Script.parse second).commands.isEmpty := by
    decide +kernel
  exact ⟨agree, sameEmpty,
    no_forward_visibility standalone Registry.builtin_readsHeadings first
      second cursor agree sameEmpty⟩

/--
Two ways to see behind the cursor line.  An evaluator that looks into the block of its
command finds what stands on later lines, and offers a variable for it.  And lines that
are the same without their line endings may differ in a carriage return, which belongs
to a string that is not closed on its line.
-/
theorem later_lines_seen :
    (let first := "load m\ncount (\n\n)"
      let second := "load m\ncount (\n\nset $x 1\n)"
      let cursor : Position := ⟨2, 0⟩
      let labels (text : String) :=
        (readingBlocks.draft .initial text cursor).items.map
          Suggestion.Item.label
      Text.AgreeThrough cursor.line first second ∧
        (Script.parse first).commands.isEmpty =
          (Script.parse second).commands.isEmpty ∧
        labels first = ["count", "load", "set", "exec"] ∧
        labels second = ["$busy", "count", "load", "set", "exec"] ∧
        (readingBlocks.complete .initial ⟨first, cursor⟩).1.outcome ≠
          (readingBlocks.complete .initial ⟨second, cursor⟩).1.outcome) ∧
      let first := "set \"a\n"
      let second := "set \"a\r\n"
      let cursor : Position := ⟨1, 0⟩
      (∀ number ≤ cursor.line,
        Text.lineAt first number = Text.lineAt second number) ∧
        (Script.parse first).commands.isEmpty =
          (Script.parse second).commands.isEmpty ∧
        (standalone.complete .initial ⟨first, cursor⟩).1.report.walk ≠
          (standalone.complete .initial ⟨second, cursor⟩).1.report.walk := by
  refine ⟨?_, ?_⟩
  · intro first second cursor labels
    have firstLabels : labels first = ["count", "load", "set", "exec"] := by
      decide +kernel
    have secondLabels :
        labels second = ["$busy", "count", "load", "set", "exec"] := by
      decide +kernel
    refine ⟨?_, ?_, firstLabels, secondLabels, ?_⟩
    · decide +kernel
    · decide +kernel
    · rw [complete_initial, complete_initial]
      intro same
      have sameLabels : labels first = labels second :=
        congrArg (List.map Suggestion.Item.label) (PassOutcome.completed.inj same)
      rw [firstLabels, secondLabels] at sameLabels
      exact absurd sameLabels (by decide)
  · decide +kernel

end Engine

end ScriptCompletion
