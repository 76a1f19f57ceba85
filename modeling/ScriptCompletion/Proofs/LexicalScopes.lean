import Mathlib.Data.List.Induction
import ScriptCompletion.Proofs.HeadingEvaluation
import ScriptCompletion.Proofs.OpenBlocks
import ScriptCompletion.Proofs.VisibleBindings

namespace ScriptCompletion

open Script (Event)

/-!
# The scopes at the cursor follow the blocks

What the walk to the cursor leaves behind can be said without the walk: the root
scope and one scope for every block that is open at the cursor.  A scope holds
what the opener of its block binds and then what the commands without a block
bind that stand directly in it above the cursor, in source order.  Nothing else
that was bound on the way is left.
-/

namespace Script

/-- The commands that bind into the scope in which they stand: those that have no
block and are above the cursor. -/
def plainAbove
    (commands : List Command)
    (cursor : Position) : List Command :=
  commands.filter fun command =>
    command.block.isNone && isAbove command cursor

theorem plainAbove_cons
    (command : Command)
    (rest : List Command)
    (cursor : Position) :
    plainAbove (command :: rest) cursor =
      plainAbove [command] cursor ++ plainAbove rest cursor := by
  rw [plainAbove, ← List.singleton_append, List.filter_append]
  rfl

theorem plainAbove_of_none_above
    {commands : List Command}
    {cursor : Position}
    (noneAbove : ∀ command ∈ flatten commands, isAbove command cursor = false) :
    plainAbove commands cursor = [] := by
  rw [plainAbove, List.filter_eq_nil_iff]
  intro command member
  simp [noneAbove command (mem_flatten_of_mem member)]

/-- The commands that are above the cursor, at any depth. -/
def allAbove
    (commands : List Command)
    (cursor : Position) : List Command :=
  (flatten commands).filter fun command => isAbove command cursor

theorem allAbove_cons
    (command : Command)
    (rest : List Command)
    (cursor : Position) :
    allAbove (command :: rest) cursor =
      allAbove [command] cursor ++ allAbove rest cursor := by
  rw [allAbove, flatten_cons command rest, List.filter_append]
  rfl

theorem allAbove_of_none_above
    {commands : List Command}
    {cursor : Position}
    (noneAbove : ∀ command ∈ flatten commands, isAbove command cursor = false) :
    allAbove commands cursor = [] := by
  rw [allAbove, List.filter_eq_nil_iff]
  intro command member
  simp [noneAbove command member]

end Script

/-- What became of each command that was visited. -/
abbrev Outcomes :=
  Script.Command → Option Outcome

namespace Outcomes

/-- What a command bound. -/
def boundBy
    (outcomes : Outcomes)
    (command : Script.Command) : List Binding :=
  (outcomes command).elim [] Outcome.bindings

/-- What the commands without a block bound that stand above the cursor. -/
def written
    (outcomes : Outcomes)
    (cursor : Position)
    (commands : List Script.Command) : List Binding :=
  (Script.plainAbove commands cursor).flatMap outcomes.boundBy

theorem written_cons
    (outcomes : Outcomes)
    (cursor : Position)
    (command : Script.Command)
    (rest : List Script.Command) :
    outcomes.written cursor (command :: rest) =
      outcomes.written cursor [command] ++ outcomes.written cursor rest := by
  rw [written, Script.plainAbove_cons command rest, List.flatMap_append]
  rfl

theorem written_of_none_above
    {cursor : Position}
    {commands : List Script.Command}
    (noneAbove :
      ∀ command ∈ Script.flatten commands, isAbove command cursor = false)
    (outcomes : Outcomes) :
    outcomes.written cursor commands = [] := by
  rw [written, Script.plainAbove_of_none_above noneAbove]
  rfl

/-- The scope of the block that a command opens. -/
def scopeOf
    (outcomes : Outcomes)
    (cursor : Position)
    (opener : Script.Command) : Frame where
  bindings :=
    Keyed.putAll Binding.key []
      (outcomes.boundBy opener ++ outcomes.written cursor opener.children)
  context := (outcomes opener).bind Outcome.key?

/-- The outcomes are those of the visits. -/
def Agrees
    (outcomes : Outcomes)
    (visits : List Visit) : Prop :=
  ∀ visit ∈ visits, outcomes visit.command = some visit.outcome

end Outcomes

namespace Walk

variable {evaluator : Evaluator} {cursor : Position} {outcomes : Outcomes}

/-- What a walk through commands does to the walk that it starts from. -/
structure Leads
    (cursor : Position)
    (outcomes : Outcomes)
    (commands : List Script.Command)
    (walk next : Walk) : Prop where
  arrived :
    next.arrived = Script.stopsIn cursor (Script.traceAll commands)
  visited :
    next.visits.map Visit.command =
      (Script.allAbove commands cursor).reverse ++
        walk.visits.map Visit.command
  frames :
    next.scopes.frames =
      ((Script.openers commands cursor).map
        (outcomes.scopeOf cursor)).reverse ++
        (walk.scopes.bindAll (outcomes.written cursor commands)).frames

/-- A walk stops at a command that is not above the cursor. -/
theorem leads_arrive
    {command : Script.Command}
    (ordered : command.trace.Pairwise (Event.Requires cursor))
    (notAbove : isAbove command cursor = false)
    (walk : Walk) :
    Leads cursor outcomes [command] walk walk.arrive := by
  have noneAbove := Script.Command.none_above ordered notAbove
  refine
    { arrived := ?_
      visited := ?_
      frames := ?_ }
  · symm
    refine Script.stopsIn_eq_true.mpr ⟨.visit command, ?_, notAbove⟩
    exact Script.mem_flatten.mp (Script.mem_flatten_of_mem (by simp))
  · rw [Script.allAbove_of_none_above noneAbove]
    rfl
  · rw [Script.openers_of_none_above noneAbove,
      Outcomes.written_of_none_above noneAbove]
    rfl

/-- A command without a block binds where it stands. -/
theorem leads_pass
    {command : Script.Command}
    (plain : command.block = none)
    (above : isAbove command cursor = true)
    {walk : Walk}
    (going : walk.arrived = false)
    {visit : Visit}
    (isVisit : visit.command = command)
    (agrees : outcomes command = some visit.outcome) :
    Leads cursor outcomes [command] walk (walk.pass visit) := by
  have notOpener : command.isOpenerAt cursor = false :=
    Script.Command.isOpenerAt_of_plain plain
  refine
    { arrived := ?_
      visited := ?_
      frames := ?_ }
  · simp [pass, going, Script.traceAll, Script.Command.trace_of_plain plain,
      Script.stopsIn, Event.isPassed, above]
  · simp [pass, Script.allAbove, Script.flatten_of_plain plain, above, isVisit]
  · simp [pass, Script.openers, Script.flatten_of_plain plain, notOpener,
      Outcomes.written, Script.plainAbove, plain, above, Outcomes.boundBy,
      agrees]

/-- A walk that stops in a command comes to nothing behind it. -/
theorem Leads.cons_of_arrived
    {command : Script.Command}
    {rest : List Script.Command}
    {walk next : Walk}
    (leads : Leads cursor outcomes [command] walk next)
    (arrived : next.arrived = true)
    (noneAbove :
      ∀ later ∈ Script.flatten rest, isAbove later cursor = false) :
    Leads cursor outcomes (command :: rest) walk next := by
  have stops := leads.arrived.symm
  rw [arrived] at stops
  refine
    { arrived := ?_
      visited := ?_
      frames := ?_ }
  · rw [Script.traceAll_cons, Script.stopsIn_append, stops, Bool.true_or,
      arrived]
  · rw [Script.allAbove_cons command rest,
      Script.allAbove_of_none_above noneAbove, List.append_nil, leads.visited]
  · rw [Script.openers_cons command rest,
      Script.openers_of_none_above noneAbove, List.append_nil,
      Outcomes.written_cons outcomes cursor command rest,
      Outcomes.written_of_none_above noneAbove, List.append_nil, leads.frames]

/-- A walk that passes a command goes on behind it. -/
theorem Leads.cons_of_going
    {command : Script.Command}
    {rest : List Script.Command}
    {walk between next : Walk}
    (first : Leads cursor outcomes [command] walk between)
    (going : between.arrived = false)
    (second : Leads cursor outcomes rest between next) :
    Leads cursor outcomes (command :: rest) walk next := by
  have passes := first.arrived.symm
  rw [going] at passes
  have sameScopes :
      between.scopes =
        walk.scopes.bindAll (outcomes.written cursor [command]) := by
    apply Scopes.eq_of_frames
    rw [first.frames, Script.openers_of_not_stopsIn passes]
    rfl
  refine
    { arrived := ?_
      visited := ?_
      frames := ?_ }
  · rw [Script.traceAll_cons, Script.stopsIn_append, passes, Bool.false_or,
      second.arrived]
  · rw [second.visited, first.visited, Script.allAbove_cons command rest,
      List.reverse_append, List.append_assoc]
  · rw [second.frames, sameScopes, Script.openers_cons command rest,
      Script.openers_of_not_stopsIn passes, List.nil_append,
      Outcomes.written_cons outcomes cursor command rest,
      Scopes.bindAll_append]

/-- What is around a walk that has entered a block and gone through it. -/
theorem frames_inside
    {command : Script.Command}
    {block : Script.Block Script.Command}
    (opens : command.block = some block)
    {walk inside : Walk}
    {visit : Visit}
    (agrees : outcomes command = some visit.outcome)
    (leads :
      Leads cursor outcomes block.commands (walk.enter visit) inside) :
    inside.scopes.frames =
      ((Script.openers block.commands cursor).map
        (outcomes.scopeOf cursor)).reverse ++
        outcomes.scopeOf cursor command :: walk.scopes.frames := by
  rw [leads.frames]
  simp only [enter, ← Scopes.bindAll_append, Scopes.frames_bindAll]
  simp [Outcomes.scopeOf, Outcomes.boundBy, agrees, Frame.bindAll,
    Scopes.enter, Frame.empty, Script.Command.children_of_block opens]

/-- A walk that stops in a block leaves its scope open. -/
theorem leads_stay
    {command : Script.Command}
    {block : Script.Block Script.Command}
    (opens : command.block = some block)
    (ordered : command.trace.Pairwise (Event.Requires cursor))
    (above : isAbove command cursor = true)
    {walk inside next : Walk}
    {visit : Visit}
    (isVisit : visit.command = command)
    (agrees : outcomes command = some visit.outcome)
    (leads :
      Leads cursor outcomes block.commands (walk.enter visit) inside)
    (stops : Script.stopsIn cursor block.trace = true)
    (arrived : next.arrived = true)
    (sameVisits : next.visits = inside.visits)
    (sameScopes : next.scopes = inside.scopes) :
    Leads cursor outcomes [command] walk next := by
  have traceShape := Script.Command.trace_eq_block_trace opens
  rw [traceShape] at ordered
  have isOpener : command.isOpenerAt cursor = true := by
    rw [Script.Command.isOpenerAt_of_block opens above,
      Script.Block.isOpenAt_eq_stopsIn ordered.of_cons, stops]
  refine
    { arrived := ?_
      visited := ?_
      frames := ?_ }
  · simp [Script.traceAll, traceShape, Script.stopsIn_cons, stops, arrived]
  · rw [sameVisits, leads.visited]
    simp [enter, isVisit, Script.allAbove, Script.flatten_of_block opens, above]
  · rw [sameScopes, frames_inside opens agrees leads,
      Script.openers_of_block opens isOpener]
    simp [Outcomes.written, Script.plainAbove, opens, Scopes.bindAll]

/-- A walk that comes past the end of a block leaves its scope. -/
theorem leads_leave
    {command : Script.Command}
    {block : Script.Block Script.Command}
    (opens : command.block = some block)
    (above : isAbove command cursor = true)
    {walk inside : Walk}
    {visit : Visit}
    (isVisit : visit.command = command)
    (agrees : outcomes command = some visit.outcome)
    (leads :
      Leads cursor outcomes block.commands (walk.enter visit) inside)
    (passes : Script.stopsIn cursor block.trace = false) :
    Leads cursor outcomes [command] walk inside.leave := by
  have traceShape := Script.Command.trace_eq_block_trace opens
  have passesAll : Script.stopsIn cursor (Script.traceAll [command]) = false := by
    simp [Script.traceAll, traceShape, Script.stopsIn_cons, passes,
      Event.isPassed, above]
  have passesInside :
      Script.stopsIn cursor (Script.traceAll block.commands) = false := by
    rw [Script.Block.trace, Script.stopsIn_append, Bool.or_eq_false_iff] at passes
    exact passes.1
  have around := frames_inside opens agrees leads
  rw [Script.openers_of_not_stopsIn passesInside] at around
  have left :
      inside.leave = { inside with scopes := walk.scopes } := by
    rw [leave, Scopes.exit_of_frames around]
  rw [left]
  refine
    { arrived := ?_
      visited := ?_
      frames := ?_ }
  · rw [passesAll]
    exact leads.arrived.trans passesInside
  · simp only
    rw [leads.visited]
    simp [enter, isVisit, Script.allAbove, Script.flatten_of_block opens, above]
  · rw [Script.openers_of_not_stopsIn passesAll]
    simp [Outcomes.written, Script.plainAbove, opens, Scopes.bindAll]

theorem throughCommand_of_not_above
    {command : Script.Command}
    (notAbove : isAbove command cursor = false)
    (walk : Walk) :
    throughCommand evaluator cursor walk command = walk.arrive := by
  cases command
  unfold throughCommand
  simp [notAbove]

theorem throughCommand_of_plain
    {command : Script.Command}
    (plain : command.block = none)
    (above : isAbove command cursor = true)
    (walk : Walk) :
    throughCommand evaluator cursor walk command =
      walk.pass (evaluator.visit walk.scopes command) := by
  cases command
  subst plain
  unfold throughCommand
  simp [above]

/-- Where a walk goes that has gone through a block. -/
def endBlock
    (inside : Walk)
    (block : Script.Block Script.Command)
    (cursor : Position) : Walk :=
  if inside.arrived then
    inside
  else if block.encloses cursor then
    inside.arrive
  else
    inside.leave

theorem visits_endBlock
    (inside : Walk)
    (block : Script.Block Script.Command)
    (cursor : Position) :
    (inside.endBlock block cursor).visits = inside.visits := by
  unfold endBlock
  split
  · rfl
  · split
    · rfl
    · unfold leave
      split <;> rfl

/-- The end of a block leaves its scope open exactly where the walk stops. -/
theorem leads_endBlock
    {command : Script.Command}
    {block : Script.Block Script.Command}
    (opens : command.block = some block)
    (ordered : command.trace.Pairwise (Event.Requires cursor))
    (above : isAbove command cursor = true)
    {walk inside : Walk}
    {visit : Visit}
    (isVisit : visit.command = command)
    (agrees : outcomes command = some visit.outcome)
    (leads :
      Leads cursor outcomes block.commands (walk.enter visit) inside) :
    Leads cursor outcomes [command] walk (inside.endBlock block cursor) := by
  have arrival := leads.arrived
  have stopsThere :
      Script.stopsIn cursor block.trace =
        (inside.arrived || block.encloses cursor) := by
    rw [Script.Block.trace, Script.stopsIn_append, ← arrival,
      Script.stopsIn_cons, Script.Block.isPassed_close]
    simp [Script.stopsIn]
  cases arrived : inside.arrived with
  | true =>
      have ended : inside.endBlock block cursor = inside := by
        simp [endBlock, arrived]
      rw [ended]
      exact leads_stay opens ordered above isVisit agrees leads
        (by rw [stopsThere, arrived, Bool.true_or]) arrived rfl rfl
  | false =>
      cases encloses : block.encloses cursor with
      | true =>
          have ended : inside.endBlock block cursor = inside.arrive := by
            simp [endBlock, arrived, encloses]
          rw [ended]
          exact leads_stay opens ordered above isVisit agrees leads
            (by rw [stopsThere, encloses, Bool.or_true]) rfl rfl rfl
      | false =>
          have ended : inside.endBlock block cursor = inside.leave := by
            simp [endBlock, arrived, encloses]
          rw [ended]
          exact leads_leave opens above isVisit agrees leads
            (by rw [stopsThere, arrived, encloses, Bool.or_false])

theorem throughCommand_of_block
    {command : Script.Command}
    {block : Script.Block Script.Command}
    (opens : command.block = some block)
    (above : isAbove command cursor = true)
    (walk : Walk) :
    throughCommand evaluator cursor walk command =
      (throughAll evaluator cursor
        (walk.enter (evaluator.visit walk.scopes command))
        block.commands).endBlock block cursor := by
  cases command
  cases block
  subst opens
  unfold throughCommand
  simp [above, endBlock]

/-- Visits are only ever added. -/
theorem visits_throughAll
    {walk : Walk}
    (going : walk.arrived = false)
    (commands : List Script.Command) :
    walk.visits ⊆ (throughAll evaluator cursor walk commands).visits := by
  rw [throughAll_eq_trace going]
  obtain ⟨added, sameVisits⟩ :
      ∃ added,
        ((Script.traceAll commands).foldl (follow evaluator cursor)
          walk).visits = added ++ walk.visits :=
    visits_foldl_follow walk (Script.traceAll commands)
  rw [sameVisits]
  exact List.subset_append_right added walk.visits

mutual

/-- The walk through a command leads where its blocks say. -/
theorem leads_throughCommand
    {walk : Walk}
    (going : walk.arrived = false)
    (command : Script.Command)
    (ordered : command.trace.Pairwise (Event.Requires cursor))
    (agrees :
      outcomes.Agrees (throughCommand evaluator cursor walk command).visits) :
    Leads cursor outcomes [command] walk
      (throughCommand evaluator cursor walk command) := by
  cases above : isAbove command cursor with
  | false =>
      rw [throughCommand_of_not_above above]
      exact leads_arrive ordered above walk
  | true =>
      have isVisit := evaluator.command_visit walk.scopes command
      match command with
      | ⟨qualifier, name, arguments, range, nameRange, none⟩ =>
          rw [throughCommand_of_plain rfl above] at agrees ⊢
          refine leads_pass rfl above going isVisit ?_
          have agreed := agrees _ (List.mem_cons_self ..)
          rwa [isVisit] at agreed
      | ⟨qualifier, name, arguments, range, nameRange,
          some ⟨commands, blockRange, closed⟩⟩ =>
          rw [throughCommand_of_block rfl above] at agrees ⊢
          rw [visits_endBlock] at agrees
          have entered :
              (walk.enter
                (evaluator.visit walk.scopes
                  ⟨qualifier, name, arguments, range, nameRange,
                    some ⟨commands, blockRange, closed⟩⟩)).arrived = false :=
            going
          have orderedInside := ordered
          rw [Script.Command.trace, List.pairwise_cons,
            List.pairwise_append] at orderedInside
          have leads := leads_throughAll entered commands orderedInside.2.1 agrees
          refine leads_endBlock rfl ordered above isVisit ?_ leads
          have agreed :=
            agrees _ (visits_throughAll entered commands (List.mem_cons_self ..))
          rwa [isVisit] at agreed

/-- The walk through commands leads where their blocks say. -/
theorem leads_throughAll
    {walk : Walk}
    (going : walk.arrived = false)
    (commands : List Script.Command)
    (ordered : (Script.traceAll commands).Pairwise (Event.Requires cursor))
    (agrees :
      outcomes.Agrees (throughAll evaluator cursor walk commands).visits) :
    Leads cursor outcomes commands walk
      (throughAll evaluator cursor walk commands) := by
  match commands with
  | [] =>
      rw [throughAll]
      refine
        { arrived := ?_
          visited := ?_
          frames := ?_ }
      · simpa [Script.stopsIn, Script.traceAll] using going
      · rfl
      · rfl
  | command :: rest =>
      have orderedParts := ordered
      rw [Script.traceAll, List.pairwise_append] at orderedParts
      rw [throughAll] at agrees ⊢
      cases arrived :
          (throughCommand evaluator cursor walk command).arrived with
      | true =>
          simp only [arrived, ↓reduceIte] at agrees ⊢
          have first :=
            leads_throughCommand going command orderedParts.1 agrees
          have stops := first.arrived.symm
          rw [arrived, Script.traceAll, Script.traceAll,
            List.append_nil] at stops
          exact first.cons_of_arrived arrived
            (Script.none_above_of_stopsIn ordered stops)
      | false =>
          simp only [arrived, Bool.false_eq_true, ↓reduceIte] at agrees ⊢
          have agreesFirst :
              outcomes.Agrees
                (throughCommand evaluator cursor walk command).visits :=
            fun visit member =>
              agrees visit (visits_throughAll arrived rest member)
          have first :=
            leads_throughCommand going command orderedParts.1 agreesFirst
          have second :=
            leads_throughAll arrived rest orderedParts.2.1 agrees
          exact first.cons_of_going arrived second

end

/-- Every visit is that of a command where the walk stood then, behind the visits that
had been made by then. -/
theorem visit_of_split
    {scopes : Scopes}
    {events : List Event}
    {later earlier : List Visit}
    {visit : Visit}
    (visited :
      (events.foldl (follow evaluator cursor) (.start scopes)).visits =
        later ++ visit :: earlier) :
    ∃ before,
      let there := before.foldl (follow evaluator cursor) (.start scopes)
      before ++ [.visit visit.command] <+: events ∧
        there.visits = earlier ∧
        visit = evaluator.visit there.scopes visit.command := by
  induction events using List.reverseRecOn generalizing later with
  | nil =>
      have nothing : [] = later ++ visit :: earlier := visited
      simp at nothing
  | append_singleton events event inductionHypothesis =>
      have longer : events <+: events ++ [event] := List.prefix_append _ _
      rw [List.foldl_append, List.foldl_cons, List.foldl_nil] at visited
      rcases visits_follow_cases
          (events.foldl (follow evaluator cursor) (.start scopes)) event with
        nothing | ⟨command, rfl, visitedNow⟩
      · obtain ⟨before, begins, isVisit⟩ :=
          inductionHypothesis (nothing.symm.trans visited)
        exact ⟨before, begins.trans longer, isVisit⟩
      · rw [visitedNow] at visited
        cases later with
        | nil =>
            obtain ⟨rfl, sameEarlier⟩ := List.cons.inj visited
            rw [Evaluator.command_visit]
            exact ⟨events, List.prefix_refl _, sameEarlier, rfl⟩
        | cons latest later =>
            obtain ⟨before, begins, isVisit⟩ :=
              inductionHypothesis (List.cons.inj visited).2
            exact ⟨before, begins.trans longer, isVisit⟩

/-- Commands are visited in the order in which they are met, and each once. -/
theorem commands_foldl_follow
    (walk : Walk)
    (events : List Event) :
    ((events.foldl (follow evaluator cursor) walk).visits.map
        Visit.command).Sublist
      ((events.filterMap Event.command?).reverse ++
        walk.visits.map Visit.command) := by
  induction events generalizing walk with
  | nil =>
      exact .refl _
  | cons event rest inductionHypothesis =>
      refine (inductionHypothesis (walk.follow evaluator cursor event)).trans ?_
      rcases visits_follow_cases walk event with
        nothing | ⟨command, rfl, visited⟩
      · rw [nothing]
        refine List.Sublist.append_right ?_ _
        exact ((List.sublist_cons_self event rest).filterMap _).reverse
      · rw [visited]
        simp [Event.command?]

end Walk

namespace Journey

/-- What became of the commands that were visited. -/
def outcomes (journey : Journey) : Outcomes :=
  fun command =>
    (journey.visits.find? fun visit => decide (visit.command = command)).map
      Visit.outcome

/-- Where every command was visited once, its outcome is that of its visit. -/
theorem outcomes_agrees
    {journey : Journey}
    (once : (journey.visits.map Visit.command).Nodup) :
    journey.outcomes.Agrees journey.visits := by
  intro visit member
  have found :
      (journey.visits.find? fun other =>
        decide (other.command = visit.command)) = some visit := by
    generalize journey.visits = visits at once member
    induction visits with
    | nil =>
        cases member
    | cons first rest inductionHypothesis =>
        rw [List.map_cons, List.nodup_cons] at once
        rcases List.mem_cons.mp member with isFirst | isLater
        · simp [isFirst]
        · have different : first.command ≠ visit.command := by
            intro same
            exact once.1 (same ▸ List.mem_map_of_mem isLater)
          simpa [List.find?_cons, different] using
            inductionHypothesis once.2 isLater
  simp [outcomes, found]

/-- What a command bound was bound by its visit. -/
theorem exists_visit_of_mem_boundBy
    {journey : Journey}
    {command : Script.Command}
    {binding : Binding}
    (member : binding ∈ journey.outcomes.boundBy command) :
    ∃ visit ∈ journey.visits,
      visit.command = command ∧ binding ∈ visit.outcome.bindings := by
  unfold Outcomes.boundBy outcomes at member
  cases found :
      journey.visits.find? fun visit => decide (visit.command = command) with
  | none =>
      simp [found] at member
  | some visit =>
      refine ⟨visit, List.mem_of_find?_eq_some found, ?_, ?_⟩
      · simpa using List.find?_some found
      · simpa [found] using member

/-- What was written was bound by the visit of a command without a block. -/
theorem exists_visit_of_mem_written
    {journey : Journey}
    {cursor : Position}
    {commands : List Script.Command}
    {binding : Binding}
    (member : binding ∈ journey.outcomes.written cursor commands) :
    ∃ visit ∈ journey.visits,
      visit.command ∈ commands ∧
        visit.command.block = none ∧
        binding ∈ visit.outcome.bindings := by
  obtain ⟨command, isPlain, bound⟩ := List.mem_flatMap.mp member
  obtain ⟨inside, condition⟩ := List.mem_filter.mp isPlain
  rw [Bool.and_eq_true, Option.isNone_iff_eq_none] at condition
  obtain ⟨visit, visited, rfl, binds⟩ := exists_visit_of_mem_boundBy bound
  exact ⟨visit, visited, inside, condition.1, binds⟩

end Journey

namespace Evaluator

/-- The command is evaluated: it is not excluded and resolves to a command of a module
that has an evaluator, which gives this answer if it is waited for. -/
structure Evaluates
    (evaluator : Evaluator)
    (scopes : Scopes)
    (command : Script.Command)
    (resolved : ResolvedCommand)
    (answer : Timed (Except EvaluationError (List Binding))) : Prop where
  notExcluded : evaluator.excluded.any command.isStandard = false
  resolves : scopes.resolve command.qualifier command.name = .ok resolved
  answers :
    ∃ evaluation,
      resolved.command.evaluator = some evaluation ∧
        (evaluator.conclude (evaluation ⟨command, scopes.view⟩)).answer = answer

/-- What can become of a command in scopes. -/
inductive Yields
    (evaluator : Evaluator)
    (scopes : Scopes)
    (command : Script.Command) : Outcome → Prop where
  | excluded
      (isExcluded : evaluator.excluded.any command.isStandard = true) :
      Yields evaluator scopes command .excluded
  | unresolved
      {error : ResolutionError}
      (notExcluded : evaluator.excluded.any command.isStandard = false)
      (fails :
        scopes.resolve command.qualifier command.name = .error error) :
      Yields evaluator scopes command (.unresolved error)
  | idle
      {resolved : ResolvedCommand}
      (notExcluded : evaluator.excluded.any command.isStandard = false)
      (resolves :
        scopes.resolve command.qualifier command.name = .ok resolved)
      (notEvaluated : resolved.command.evaluator = none) :
      Yields evaluator scopes command (.idle resolved.key)
  | evaluated
      {resolved : ResolvedCommand}
      {delay : Nat}
      {bindings : List Binding}
      (evaluates :
        evaluator.Evaluates scopes command resolved ⟨delay, .ok bindings⟩)
      (inTime : delay ≤ evaluator.timeout) :
      Yields evaluator scopes command (.evaluated resolved.key bindings)
  | failed
      {resolved : ResolvedCommand}
      {delay : Nat}
      {error : EvaluationError}
      (evaluates :
        evaluator.Evaluates scopes command resolved ⟨delay, .error error⟩)
      (inTime : delay ≤ evaluator.timeout) :
      Yields evaluator scopes command (.failed resolved.key error)
  | late
      {resolved : ResolvedCommand}
      {answer : Timed (Except EvaluationError (List Binding))}
      (evaluates : evaluator.Evaluates scopes command resolved answer)
      (tooLate : evaluator.timeout < answer.delay) :
      Yields evaluator scopes command
        (.failed resolved.key
          (.external (.timeout command.qualifiedName evaluator.timeout)))

/-- A visit ends with what becomes of the command. -/
theorem yields_visit
    (evaluator : Evaluator)
    (scopes : Scopes)
    (command : Script.Command) :
    evaluator.Yields scopes command (evaluator.visit scopes command).outcome := by
  unfold visit
  cases isExcluded : evaluator.excluded.any command.isStandard with
  | true =>
      exact .excluded isExcluded
  | false =>
      cases resolves : scopes.resolve command.qualifier command.name with
      | error error =>
          exact .unresolved isExcluded resolves
      | ok resolved =>
          cases isEvaluator : resolved.command.evaluator with
          | none =>
              simpa [isEvaluator] using .idle isExcluded resolves isEvaluator
          | some evaluation =>
              have evaluates :
                  evaluator.Evaluates scopes command resolved
                    (evaluator.conclude
                      (evaluation ⟨command, scopes.view⟩)).answer :=
                ⟨isExcluded, resolves, evaluation, isEvaluator, rfl⟩
              simp only [isEvaluator, evaluate, Timed.within, Bool.false_eq_true,
                ↓reduceIte]
              generalize (evaluator.conclude
                (evaluation ⟨command, scopes.view⟩)).answer = answer at evaluates ⊢
              by_cases tooLate : evaluator.timeout < answer.delay
              · simpa [tooLate] using .late evaluates tooLate
              · obtain ⟨delay, error | bindings⟩ := answer
                · simpa [tooLate] using .failed evaluates (Nat.le_of_not_lt tooLate)
                · simpa [tooLate] using .evaluated evaluates (Nat.le_of_not_lt tooLate)

/-- The module whose commands come first in the block of a command: the one that
the command belongs to. -/
def blockContext
    (evaluator : Evaluator)
    (scopes : Scopes)
    (command : Script.Command) : Option String :=
  if evaluator.excluded.any command.isStandard then
    none
  else
    match scopes.resolve command.qualifier command.name with
    | .error _ =>
        none
    | .ok resolved =>
        some resolved.key

theorem Yields.key?_eq
    {evaluator : Evaluator}
    {scopes : Scopes}
    {command : Script.Command}
    {outcome : Outcome}
    (yields : evaluator.Yields scopes command outcome) :
    outcome.key? = evaluator.blockContext scopes command := by
  unfold blockContext
  cases yields with
  | excluded isExcluded =>
      rw [if_pos isExcluded]
      rfl
  | unresolved notExcluded fails =>
      simp [notExcluded, fails, Outcome.key?]
  | idle notExcluded resolves notEvaluated =>
      simp [notExcluded, resolves, Outcome.key?]
  | evaluated evaluates inTime =>
      simp [evaluates.notExcluded, evaluates.resolves, Outcome.key?]
  | failed evaluates inTime =>
      simp [evaluates.notExcluded, evaluates.resolves, Outcome.key?]
  | late evaluates tooLate =>
      simp [evaluates.notExcluded, evaluates.resolves, Outcome.key?]

/-- The visits of a walk are those of the fold over its events. -/
theorem visits_walk
    (evaluator : Evaluator)
    (commands : List Script.Command)
    (cursor : Position)
    (scopes : Scopes) :
    (evaluator.walk commands cursor scopes).visits =
      ((Script.traceAll commands).foldl (Walk.follow evaluator cursor)
        (.start scopes)).visits.reverse := by
  rw [walk_eq_trace]

/-- A command is visited where the walk stands when it comes to it, behind the visits
before it. -/
theorem visit_of_walk_split
    {evaluator : Evaluator}
    {commands : List Script.Command}
    {cursor : Position}
    {scopes : Scopes}
    {earlier later : List Visit}
    {visit : Visit}
    (visited :
      (evaluator.walk commands cursor scopes).visits =
        earlier ++ visit :: later) :
    ∃ before,
      let there :=
        before.foldl (Walk.follow evaluator cursor) (.start scopes)
      before ++ [.visit visit.command] <+: Script.traceAll commands ∧
        there.visits.reverse = earlier ∧
        visit = evaluator.visit there.scopes visit.command ∧
        evaluator.Yields there.scopes visit.command visit.outcome := by
  rw [visits_walk, List.reverse_eq_iff, List.reverse_append, List.reverse_cons,
    List.append_assoc, List.singleton_append] at visited
  obtain ⟨before, begins, sameEarlier, isVisit⟩ := Walk.visit_of_split visited
  refine ⟨before, begins, List.reverse_eq_iff.mpr sameEarlier, isVisit, ?_⟩
  have yields :=
    evaluator.yields_visit
      (before.foldl (Walk.follow evaluator cursor) (.start scopes)).scopes
      visit.command
  rwa [← isVisit] at yields

/-- A command is visited where the walk stands then: behind some of its events. -/
theorem visit_behind_of_mem_walk
    {evaluator : Evaluator}
    {commands : List Script.Command}
    {cursor : Position}
    {scopes : Scopes}
    {visit : Visit}
    (member : visit ∈ (evaluator.walk commands cursor scopes).visits) :
    ∃ before,
      before <+: Script.traceAll commands ∧
        visit =
          evaluator.visit
            (before.foldl (Walk.follow evaluator cursor) (.start scopes)).scopes
            visit.command := by
  obtain ⟨earlier, later, visited⟩ := List.append_of_mem member
  obtain ⟨before, begins, -, isVisit, -⟩ := visit_of_walk_split visited
  exact ⟨before, (List.prefix_append _ _).trans begins, isVisit⟩

section Parsed

variable (evaluator : Evaluator) (text : String) (cursor : Position)
  (scopes : Scopes)

/-- The walk through a script that was read from a text visits no command
twice. -/
theorem nodup_commands_walk :
    ((evaluator.walk (Script.parse text).commands cursor scopes).visits.map
      Visit.command).Nodup := by
  have inOrder :
      (((Script.traceAll (Script.parse text).commands).foldl
          (Walk.follow evaluator cursor) (.start scopes)).visits.map
        Visit.command).Sublist
        (Script.flatten (Script.parse text).commands).reverse := by
    rw [Script.flatten_eq_trace,
      ← List.append_nil (List.reverse (List.filterMap _ _))]
    exact Walk.commands_foldl_follow (.start scopes) _
  rw [visits_walk, List.map_reverse]
  exact (List.reverse_sublist.mpr inOrder).nodup
    (by simpa using Script.nodup_flatten_parse text)

/-- The walk through a script leads where its blocks say. -/
theorem leads_walk :
    let journey := evaluator.walk (Script.parse text).commands cursor scopes
    Walk.Leads cursor journey.outcomes (Script.parse text).commands
      (.start scopes)
      (Walk.throughAll evaluator cursor (.start scopes)
        (Script.parse text).commands) := by
  intro journey
  have agrees :=
    Journey.outcomes_agrees (nodup_commands_walk evaluator text cursor scopes)
  refine Walk.leads_throughAll rfl _ (Script.parse_requires text cursor) ?_
  intro visit member
  exact agrees visit (List.mem_reverse.mpr member)

/-- The commands above the line of the cursor are visited, in source order. -/
theorem commands_walk :
    (evaluator.walk (Script.parse text).commands cursor scopes).visits.map
        Visit.command =
      Script.allAbove (Script.parse text).commands cursor := by
  have visited := (leads_walk evaluator text cursor scopes).visited
  simpa [walk, Walk.start] using congrArg List.reverse visited

/-- The root scope and the scopes of the open blocks are left. -/
theorem frames_walk
    (root : Frame) :
    let commands := (Script.parse text).commands
    let journey := evaluator.walk commands cursor ⟨root, []⟩
    journey.scopes.frames.reverse =
      root.bindAll (journey.outcomes.written cursor commands) ::
        (Script.openers commands cursor).map
          (journey.outcomes.scopeOf cursor) := by
  intro commands journey
  have frames := (leads_walk evaluator text cursor ⟨root, []⟩).frames
  rw [Scopes.frames_bindAll] at frames
  simpa [journey, commands, walk, Walk.start] using congrArg List.reverse frames

/-- The module of an open block is the one that its opener resolves to, in the
scopes that the walk has left when it comes to the opener. -/
theorem context_scopeOf_walk
    {opener : Script.Command}
    (isOpener : opener ∈ Script.openers (Script.parse text).commands cursor) :
    let commands := (Script.parse text).commands
    let journey := evaluator.walk commands cursor scopes
    ∃ before,
      before ++ [.visit opener] <+: Script.traceAll commands ∧
        (journey.outcomes.scopeOf cursor opener).context =
          evaluator.blockContext
            (before.foldl (Walk.follow evaluator cursor) (.start scopes)).scopes
            opener := by
  intro commands journey
  obtain ⟨inside, isOpen⟩ := List.mem_filter.mp isOpener
  have above : isAbove opener cursor = true :=
    ((Bool.and_eq_true _ _).mp isOpen).1
  have visited : opener ∈ journey.visits.map Visit.command := by
    rw [commands_walk]
    exact List.mem_filter.mpr ⟨inside, above⟩
  obtain ⟨visit, isVisited, rfl⟩ := List.mem_map.mp visited
  have agrees :=
    Journey.outcomes_agrees (nodup_commands_walk evaluator text cursor scopes)
      visit isVisited
  obtain ⟨earlier, later, split⟩ := List.append_of_mem isVisited
  obtain ⟨before, begins, -, -, yields⟩ := visit_of_walk_split split
  refine ⟨before, begins, ?_⟩
  rw [← yields.key?_eq, Outcomes.scopeOf, agrees]
  rfl

/-- What is in scope was there before, or was bound by the opener of an open block
or by a command without a block that stands directly in an open block or at top
level. -/
theorem provenance_walk
    (root : Frame)
    {binding : Binding} :
    let commands := (Script.parse text).commands
    let journey := evaluator.walk commands cursor ⟨root, []⟩
    let opened := Script.openers commands cursor
    binding ∈ journey.scopes.bindings →
      binding ∈ root.bindings ∨
        ∃ visit ∈ journey.visits,
          binding ∈ visit.outcome.bindings ∧
            (visit.command ∈ opened ∨
              visit.command.block = none ∧
                (visit.command ∈ commands ∨
                  ∃ opener ∈ opened, visit.command ∈ opener.children)) := by
  intro commands journey opened member
  rw [Scopes.bindings, frames_walk evaluator text cursor root,
    List.flatMap_cons, List.mem_append, List.mem_flatMap] at member
  rcases member with inRoot | ⟨frame, isFrame, inFrame⟩
  · rcases Keyed.mem_of_mem_putAll inRoot with isOld | isWritten
    · exact .inl isOld
    · obtain ⟨visit, visited, inside, plain, binds⟩ :=
        Journey.exists_visit_of_mem_written isWritten
      exact .inr ⟨visit, visited, binds, .inr ⟨plain, .inl inside⟩⟩
  · obtain ⟨opener, isOpener, rfl⟩ := List.mem_map.mp isFrame
    right
    rcases Keyed.mem_of_mem_putAll inFrame with impossible | isNew
    · cases impossible
    · rcases List.mem_append.mp isNew with byOpener | isWritten
      · obtain ⟨visit, visited, rfl, binds⟩ :=
          Journey.exists_visit_of_mem_boundBy byOpener
        exact ⟨visit, visited, binds, .inl isOpener⟩
      · obtain ⟨visit, visited, inside, plain, binds⟩ :=
          Journey.exists_visit_of_mem_written isWritten
        exact ⟨visit, visited, binds,
          .inr ⟨plain, .inr ⟨opener, isOpener, inside⟩⟩⟩

/-- The walk leaves the root scope and one scope for every open block, outermost
first, whatever the commands evaluate to.

Every command is visited in the scopes that the walk has left behind the visits
before it, and its outcome is what these scopes yield.  A scope holds what the
opener of its block bound and then what the commands without a block bound that
stand directly in it above the line of the cursor; its module is the one that the
opener resolves to in the scopes where the walk comes to it, if it is not excluded.
Nothing that was bound by or in a block that is not open is left.  A block that
begins above the line of the cursor is open if it is never closed or closed behind
that line, and not open if it is closed above it. -/
theorem lexical_scoping
    (root : Frame) :
    let commands := (Script.parse text).commands
    let journey := evaluator.walk commands cursor ⟨root, []⟩
    let outcomes := journey.outcomes
    let opened := Script.openers commands cursor
    let behind (events : List Event) : Walk :=
      events.foldl (Walk.follow evaluator cursor) (.start ⟨root, []⟩)
    journey.visits.map Visit.command = Script.allAbove commands cursor ∧
      (∀ earlier visit later,
        journey.visits = earlier ++ visit :: later →
        outcomes visit.command = some visit.outcome ∧
          ∃ before,
            before ++ [.visit visit.command] <+: Script.traceAll commands ∧
              (behind before).visits.reverse = earlier ∧
              visit = evaluator.visit (behind before).scopes visit.command ∧
              evaluator.Yields (behind before).scopes visit.command
                visit.outcome ∧
              visit.outcome.key? =
                evaluator.blockContext (behind before).scopes visit.command) ∧
      journey.scopes.frames.reverse =
        root.bindAll (outcomes.written cursor commands) ::
          opened.map (outcomes.scopeOf cursor) ∧
      Script.IsDescent commands opened ∧
      (∀ opener ∈ opened,
        ∃ before,
          before ++ [.visit opener] <+: Script.traceAll commands ∧
            (outcomes.scopeOf cursor opener).context =
              evaluator.blockContext (behind before).scopes opener) ∧
      (∀ binding ∈ journey.scopes.bindings,
        binding ∈ root.bindings ∨
          ∃ visit ∈ journey.visits,
            binding ∈ visit.outcome.bindings ∧
              (visit.command ∈ opened ∨
                visit.command.block = none ∧
                  (visit.command ∈ commands ∨
                    ∃ opener ∈ opened, visit.command ∈ opener.children))) ∧
      ∀ opener ∈ Script.flatten commands, ∀ block, opener.block = some block →
        (isAbove opener cursor = true →
          (block.closed = false ∨
            ∃ range, block.range = some range ∧
              cursor.line < range.stop.line) →
          opener ∈ opened) ∧
        (block.closed = true →
          (∃ range, block.range = some range ∧
            range.stop.line < cursor.line) →
          opener ∉ opened) := by
  intro commands journey outcomes opened behind
  refine ⟨commands_walk evaluator text cursor _, ?_,
    frames_walk evaluator text cursor root,
    Script.openers_descend commands (Script.parse_requires text cursor),
    fun opener => context_scopeOf_walk evaluator text cursor ⟨root, []⟩,
    fun binding => provenance_walk evaluator text cursor root, ?_⟩
  · intro earlier visit later split
    have once := nodup_commands_walk evaluator text cursor ⟨root, []⟩
    have visited : visit ∈ journey.visits := by
      simp [split]
    obtain ⟨before, begins, sameEarlier, isVisit, yields⟩ :=
      visit_of_walk_split split
    exact ⟨Journey.outcomes_agrees once visit visited, before, begins,
      sameEarlier, isVisit, yields, yields.key?_eq⟩
  · intro opener member block opens
    constructor
    · intro above late
      apply Script.mem_openers_of_isBehind member opens above
      intro line isLine
      cases closed : block.closed with
      | false =>
          rw [closed] at isLine
          cases isLine
      | true =>
          obtain ⟨range, isRange, behind⟩ :=
            late.resolve_left (by simp [closed])
          rw [closed, isRange] at isLine
          cases isLine
          exact behind
    · rintro closed ⟨range, isRange, isEarlier⟩
      have closes :
          (Event.close block.range block.closed).line? =
            some range.stop.line := by
        rw [closed, isRange]
        rfl
      exact Script.not_mem_openers_of_line? member opens closes isEarlier

end Parsed

end Evaluator

end ScriptCompletion
