import ScriptCompletion.Proofs.LexicalScopes
import ScriptCompletion.Proofs.WalkReport

namespace ScriptCompletion

open Script (Event)

/-!
# Failures stay where they are

A command without a block that belongs to no module, or whose evaluation fails,
binds nothing.  The walk goes on behind it as if it had not been there: without
the command, all other commands are visited with the same outcomes, the walk ends in
the same scopes, and of its report only the entry of the command is gone.

A command is taken out of a tree by its number in source order.  The blocks around it
change with it, so that their openers are not the same commands any more; only their
headings are.  An evaluator that looks into the block of its command can tell the two
trees apart.
-/

/-- The item behind so many others is taken out. -/
theorem eraseIdx_append_cons
    {Item : Type}
    (first : List Item)
    (item : Item)
    (second : List Item) :
    (first ++ item :: second).eraseIdx first.length = first ++ second := by
  rw [List.eraseIdx_append_of_length_le (Nat.le_refl _), Nat.sub_self,
    List.eraseIdx_cons_zero]

namespace Script

/-- The number of commands in a command, itself included. -/
def Command.size (command : Command) : Nat :=
  (flatten [command]).length

mutual

/-- The command with the numbered one taken out of its block. -/
def Command.eraseInside
    (number : Nat)
    (command : Command) : Command :=
  match command with
  | ⟨qualifier, name, arguments, range, nameRange, none⟩ =>
      ⟨qualifier, name, arguments, range, nameRange, none⟩
  | ⟨qualifier, name, arguments, range, nameRange,
      some ⟨commands, blockRange, closed⟩⟩ =>
      ⟨qualifier, name, arguments, range, nameRange,
        some ⟨eraseAt number commands, blockRange, closed⟩⟩

/-- The commands without the one that has the number in source order. -/
def eraseAt
    (number : Nat)
    (commands : List Command) : List Command :=
  match commands with
  | [] =>
      []
  | command :: rest =>
      if number = 0 then
        rest
      else if number < command.size then
        command.eraseInside (number - 1) :: rest
      else
        command :: eraseAt (number - command.size) rest

end

/-- Whether the command that has the number in source order stands in a block. -/
def standsInBlock
    (number : Nat)
    (commands : List Command) : Bool :=
  match commands with
  | [] =>
      false
  | command :: rest =>
      if number = 0 then
        false
      else if number < command.size then
        true
      else
        standsInBlock (number - command.size) rest

/-- How the trace of a tree changes when the numbered command is taken out: what is
met before it keeps its headings, and what is met behind it stays.  Outside of blocks
what is met before it stays, too. -/
def TakesOut
    (gone : Command)
    (number : Nat)
    (inBlock : Bool)
    (whole part : List Event) : Prop :=
  ∃ before kept behind,
    whole = before ++ (gone.trace ++ behind) ∧
      part = kept ++ behind ∧
      kept.map Event.heading = before.map Event.heading ∧
      (headings before).length = number ∧
      (inBlock = false → kept = before)

namespace TakesOut

variable {gone : Command} {number : Nat} {inBlock : Bool}
  {whole part : List Event}

theorem here
    (gone : Command)
    (behind : List Event) :
    TakesOut gone 0 false (gone.trace ++ behind) behind :=
  ⟨[], [], behind, rfl, rfl, rfl, rfl, fun _ => rfl⟩

theorem append_right
    (takesOut : TakesOut gone number inBlock whole part)
    (events : List Event) :
    TakesOut gone number inBlock (whole ++ events) (part ++ events) := by
  obtain ⟨before, kept, behind, rfl, rfl, same, counted, atTop⟩ := takesOut
  exact ⟨before, kept, behind ++ events, by simp, by simp, same, counted, atTop⟩

theorem append_left
    (takesOut : TakesOut gone number inBlock whole part)
    (events : List Event) :
    TakesOut gone ((headings events).length + number) inBlock
      (events ++ whole) (events ++ part) := by
  obtain ⟨before, kept, behind, rfl, rfl, same, rfl, atTop⟩ := takesOut
  refine ⟨events ++ before, events ++ kept, behind, by simp, by simp, ?_, ?_, ?_⟩
  · simp [same]
  · simp [headings]
  · intro isTop
    rw [atTop isTop]

/-- The opener of a block changes with the block, but not its heading. -/
theorem inside
    (takesOut : TakesOut gone number inBlock whole part)
    {opener changed : Command}
    (sameOpener : changed.heading = opener.heading) :
    TakesOut gone (number + 1) true (.visit opener :: whole)
      (.visit changed :: part) := by
  obtain ⟨before, kept, behind, rfl, rfl, same, rfl, -⟩ := takesOut
  refine ⟨.visit opener :: before, .visit changed :: kept, behind, rfl, rfl, ?_,
    rfl, nofun⟩
  simp [Event.heading, same, sameOpener]

end TakesOut

theorem Command.length_headings_trace (command : Command) :
    (headings command.trace).length = command.size := by
  simp [size, flatten_eq_trace, traceAll, headings]

theorem Command.trace_eq_visit_cons (command : Command) :
    ∃ inside, command.trace = .visit command :: inside := by
  cases opens : command.block with
  | none =>
      exact ⟨[], trace_of_plain opens⟩
  | some block =>
      exact ⟨_, trace_of_block opens⟩

mutual

/-- A command is taken out of a block. -/
theorem Command.takesOut_eraseInside
    {number : Nat}
    {gone : Command}
    (command : Command)
    (isGone : (flatten [command])[number + 1]? = some gone) :
    TakesOut gone (number + 1) true command.trace
      (command.eraseInside number).trace := by
  match command with
  | ⟨qualifier, name, arguments, range, nameRange, none⟩ =>
      simp [flatten_of_plain] at isGone
  | ⟨qualifier, name, arguments, range, nameRange,
      some ⟨commands, blockRange, closed⟩⟩ =>
      rw [flatten_of_block rfl, List.getElem?_cons_succ] at isGone
      have inBlock := takesOut_eraseAt commands isGone
      rw [Command.eraseInside, Command.trace, Command.trace]
      exact (inBlock.append_right _).inside rfl

/-- A command is taken out of a tree. -/
theorem takesOut_eraseAt
    {number : Nat}
    {gone : Command}
    (commands : List Command)
    (isGone : (flatten commands)[number]? = some gone) :
    TakesOut gone number (standsInBlock number commands) (traceAll commands)
      (traceAll (eraseAt number commands)) := by
  match commands with
  | [] =>
      simp [flatten_eq_trace, traceAll] at isGone
  | command :: rest =>
      rw [flatten_cons] at isGone
      rw [eraseAt, standsInBlock, traceAll]
      by_cases isFirst : number = 0
      · subst number
        obtain ⟨inside, shape⟩ := flatten_singleton command
        obtain rfl : command = gone := by
          simpa [shape] using isGone
        simpa using TakesOut.here command (traceAll rest)
      · by_cases isInside : number < command.size
        · rw [List.getElem?_append_left isInside] at isGone
          obtain ⟨earlier, rfl⟩ := Nat.exists_eq_succ_of_ne_zero isFirst
          have taken := Command.takesOut_eraseInside command isGone
          simp only [isInside, isFirst, ↓reduceIte, traceAll]
          exact taken.append_right (traceAll rest)
        · have notInside := Nat.le_of_not_lt isInside
          rw [List.getElem?_append_right notInside] at isGone
          have taken :=
            (takesOut_eraseAt rest isGone).append_left command.trace
          have sameNumber :
              command.size + (number - command.size) = number :=
            Nat.add_sub_cancel' notInside
          rw [command.length_headings_trace, ← Command.size, sameNumber] at taken
          simpa only [isInside, isFirst, ↓reduceIte, traceAll] using taken

end

/-- Without a command that has no block, the headings of all others are left. -/
theorem headings_flatten_eraseAt
    {number : Nat}
    {gone : Command}
    {commands : List Command}
    (isGone : (flatten commands)[number]? = some gone)
    (plain : gone.block = none) :
    (flatten (eraseAt number commands)).map Command.heading =
      ((flatten commands).eraseIdx number).map Command.heading := by
  obtain ⟨before, kept, behind, whole, part, same, rfl, -⟩ :=
    takesOut_eraseAt commands isGone
  have sameHeadings :
      (headings kept).map Command.heading =
        (headings before).map Command.heading := by
    have sameCommands := congrArg headings same
    simpa [headings, List.filterMap_map, Function.comp_def,
      List.map_filterMap] using sameCommands
  have isWhole : flatten commands = headings before ++ gone :: headings behind := by
    simp [flatten_eq_trace, whole, headings, Command.trace_of_plain plain,
      Event.command?]
  have isPart :
      flatten (eraseAt (headings before).length commands) =
        headings kept ++ headings behind := by
    rw [flatten_eq_trace, part, List.filterMap_append]
    rfl
  rw [isPart, isWhole, eraseIdx_append_cons, List.map_append, List.map_append,
    sameHeadings]

end Script

/-- What fails binds nothing and is not evaluated. -/
theorem Visit.nothing_of_failure?
    {visit : Visit}
    {failed : CommandFailure}
    (fails : visit.failure? = some failed) :
    visit.outcome.bindings = [] ∧ visit.outcome.isEvaluated = false := by
  unfold failure? at fails
  cases became : visit.outcome with
  | unresolved error | failed key error =>
      exact ⟨rfl, rfl⟩
  | excluded | idle key | evaluated key bindings =>
      rw [became] at fails
      cases fails

namespace Walk

variable {evaluator : Evaluator} {cursor : Position}

/-- The walk with further visits before its own. -/
def onto
    (walk : Walk)
    (earlier : List Visit) : Walk :=
  { walk with visits := walk.visits ++ earlier }

theorem leave_onto
    (walk : Walk)
    (earlier : List Visit) :
    (walk.onto earlier).leave = walk.leave.onto earlier := by
  unfold leave
  have sameScopes : (walk.onto earlier).scopes = walk.scopes := rfl
  rw [sameScopes]
  cases walk.scopes.exit <;> rfl

/-- A step does not look at earlier visits. -/
theorem follow_onto
    (walk : Walk)
    (earlier : List Visit)
    (event : Event) :
    (walk.onto earlier).follow evaluator cursor event =
      (walk.follow evaluator cursor event).onto earlier := by
  have sameArrived : (walk.onto earlier).arrived = walk.arrived := rfl
  unfold follow
  rw [sameArrived]
  split
  · rfl
  · split
    · cases event with
      | visit command =>
          have sameScopes : (walk.onto earlier).scopes = walk.scopes := rfl
          simp only [sameScopes]
          split <;> rfl
      | close range closed =>
          exact leave_onto walk earlier
    · rfl

theorem foldl_follow_onto
    (walk : Walk)
    (earlier : List Visit)
    (events : List Event) :
    events.foldl (follow evaluator cursor) (walk.onto earlier) =
      (events.foldl (follow evaluator cursor) walk).onto earlier := by
  induction events generalizing walk with
  | nil =>
      rfl
  | cons event rest inductionHypothesis =>
      rw [List.foldl_cons, List.foldl_cons, follow_onto, inductionHypothesis]

/-- What a walk visits from a place on depends on the place alone. -/
theorem foldl_follow_eq_onto
    (walk : Walk)
    (events : List Event) :
    events.foldl (follow evaluator cursor) walk =
      (events.foldl (follow evaluator cursor)
        ⟨walk.scopes, [], walk.arrived⟩).onto walk.visits :=
  foldl_follow_onto ⟨walk.scopes, [], walk.arrived⟩ walk.visits events

/-- A walk that goes on has not arrived before. -/
theorem going_of_foldl_follow
    {walk : Walk}
    {events : List Event}
    (going : (events.foldl (follow evaluator cursor) walk).arrived = false) :
    walk.arrived = false := by
  cases arrived : walk.arrived with
  | false =>
      rfl
  | true =>
      rw [foldl_follow_of_arrived arrived, arrived] at going
      cases going

/-- A walk that goes on has visited every command that it has met. -/
theorem length_visits_of_going
    {walk : Walk}
    {events : List Event}
    (going : (events.foldl (follow evaluator cursor) walk).arrived = false) :
    (events.foldl (follow evaluator cursor) walk).visits.length =
      walk.visits.length + (Script.headings events).length := by
  induction events generalizing walk with
  | nil =>
      rfl
  | cons event rest inductionHypothesis =>
      have goingNow : (walk.follow evaluator cursor event).arrived = false :=
        going_of_foldl_follow going
      have goingBefore : walk.arrived = false :=
        going_of_foldl_follow going
      rw [List.foldl_cons, inductionHypothesis going]
      cases event with
      | visit command =>
          cases above : isAbove command cursor with
          | false =>
              have reached : (Event.visit command).isPassed cursor = false :=
                above
              rw [follow_of_not_passed goingBefore reached] at goingNow
              cases goingNow
          | true =>
              rw [(follow_visit_spec evaluator goingBefore above).2.1,
                Script.headings_visit, List.length_cons, List.length_cons]
              omega
      | close range closed =>
          rcases visits_follow_cases walk (.close range closed) with
            nothing | ⟨command, wrong, -⟩
          · rw [nothing, Script.headings_close]
          · cases wrong

/-- A walk has visited at most the commands that it has met. -/
theorem length_visits_le
    (evaluator : Evaluator)
    (cursor : Position)
    (walk : Walk)
    (events : List Event) :
    (events.foldl (follow evaluator cursor) walk).visits.length ≤
      walk.visits.length + (Script.headings events).length := by
  have inOrder :
      ((events.foldl (follow evaluator cursor) walk).visits.map
          Visit.command).Sublist _ :=
    commands_foldl_follow walk events
  have fewer := inOrder.length_le
  simp only [List.length_map, List.length_append, List.length_reverse] at fewer
  rw [Nat.add_comm]
  exact fewer

/-- The command with a number in source order is visited, if a visit has that
number, where the walk stands behind what is met before the command. -/
theorem visit_of_getElem?
    {scopes : Scopes}
    {before behind : List Event}
    {command : Script.Command}
    {visit : Visit}
    (visited :
      (((before ++ .visit command :: behind).foldl (follow evaluator cursor)
          (.start scopes)).visits.reverse)[(Script.headings before).length]? =
        some visit) :
    let there := before.foldl (follow evaluator cursor) (.start scopes)
    there.arrived = false ∧
      there.visits.length = (Script.headings before).length ∧
      isAbove command cursor = true ∧
      visit = evaluator.visit there.scopes command := by
  intro there
  have longEnough
      {walk : Walk}
      (isWhole :
        (before ++ .visit command :: behind).foldl (follow evaluator cursor)
          (.start scopes) = walk) :
      (Script.headings before).length < walk.visits.length := by
    rw [isWhole] at visited
    simpa using (List.getElem?_eq_some_iff.mp visited).1
  have noVisits : (start scopes).visits.length = 0 := rfl
  have atMost : there.visits.length ≤ _ :=
    length_visits_le evaluator cursor (.start scopes) before
  rw [noVisits, Nat.zero_add] at atMost
  have split :
      (before ++ .visit command :: behind).foldl (follow evaluator cursor)
          (.start scopes) =
        behind.foldl (follow evaluator cursor)
          (there.follow evaluator cursor (.visit command)) := by
    rw [List.foldl_append, List.foldl_cons]
  have going : there.arrived = false := by
    cases arrived : there.arrived with
    | false =>
        rfl
    | true =>
        rw [follow_of_arrived arrived, foldl_follow_of_arrived arrived] at split
        exact absurd (longEnough split) (Nat.not_lt.mpr atMost)
  have above : isAbove command cursor = true := by
    cases passed : isAbove command cursor with
    | true =>
        rfl
    | false =>
        have reached : (Event.visit command).isPassed cursor = false := passed
        have arrived : there.arrive.arrived = true := rfl
        rw [follow_of_not_passed going reached,
          foldl_follow_of_arrived arrived] at split
        exact absurd (longEnough split) (Nat.not_lt.mpr atMost)
  have counted : there.visits.length = _ := length_visits_of_going going
  rw [noVisits, Nat.zero_add] at counted
  refine ⟨going, counted, above, ?_⟩
  obtain ⟨added, sameVisits⟩ :=
    visits_foldl_follow (there.follow evaluator cursor (.visit command)) behind
  rw [(follow_visit_spec evaluator going above).2.1] at sameVisits
  rw [split, sameVisits, ← counted] at visited
  simpa [eq_comm] using visited

/-- A command without a block that fails leaves nothing but its visit. -/
theorem follow_of_failure
    {walk : Walk}
    (going : walk.arrived = false)
    {command : Script.Command}
    (above : isAbove command cursor = true)
    (plain : command.block = none)
    {failed : CommandFailure}
    (fails : (evaluator.visit walk.scopes command).failure? = some failed) :
    walk.follow evaluator cursor (.visit command) =
      { walk with
        visits := evaluator.visit walk.scopes command :: walk.visits } := by
  have nothing := (Visit.nothing_of_failure? fails).1
  simp [follow_visit going above, plain, pass, nothing, Scopes.bindAll]

/-- Walks through the same headings lead to the same place, if what they meet is the
same or else no module looks at more than headings. -/
theorem heading_foldl_follow_eq
    {walk : Walk}
    {first second : List Event}
    (sameHeadings : first.map Event.heading = second.map Event.heading)
    {differ : Bool}
    (same : differ = false → first = second)
    (readsHeadings : differ = true → walk.ReadsHeadings) :
    (first.foldl (follow evaluator cursor) walk).heading =
      (second.foldl (follow evaluator cursor) walk).heading := by
  cases differs : differ with
  | false =>
      rw [same differs]
  | true =>
      rw [← foldl_follow_heading (readsHeadings differs), sameHeadings,
        foldl_follow_heading (readsHeadings differs)]

/-- Two walks that stand at the same place, of which one meets a command without a
block that fails, go on in the same way. -/
theorem foldl_follow_behind_failure
    {walk other : Walk}
    (sameHeading : other.heading = walk.heading)
    (going : walk.arrived = false)
    {command : Script.Command}
    (above : isAbove command cursor = true)
    (plain : command.block = none)
    {failed : CommandFailure}
    (fails : (evaluator.visit walk.scopes command).failure? = some failed)
    (behind : List Event) :
    ∃ onward : Walk,
      (.visit command :: behind).foldl (follow evaluator cursor) walk =
          onward.onto (evaluator.visit walk.scopes command :: walk.visits) ∧
        behind.foldl (follow evaluator cursor) other =
          onward.onto other.visits := by
  have sameScopes : other.scopes = walk.scopes := by
    simpa [heading] using congrArg Walk.scopes sameHeading
  have sameArrived : other.arrived = walk.arrived := by
    simpa [heading] using congrArg Walk.arrived sameHeading
  refine
    ⟨behind.foldl (follow evaluator cursor) ⟨walk.scopes, [], walk.arrived⟩,
      ?_, ?_⟩
  · rw [List.foldl_cons, follow_of_failure going above plain fails,
      foldl_follow_eq_onto]
  · rw [foldl_follow_eq_onto, sameScopes, sameArrived]

end Walk

/-- Without the visit of a command that failed, its entry is gone from the report. -/
theorem Journey.report_without
    {journey without : Journey}
    {earlier later : List Visit}
    {visit : Visit}
    (whole : journey.visits = earlier ++ visit :: later)
    (part :
      without.visits.map Visit.heading =
        (journey.visits.eraseIdx earlier.length).map Visit.heading)
    {failed : CommandFailure}
    (fails : visit.failure? = some failed) :
    without.report.evaluated = journey.report.evaluated ∧
      without.report.skipped + (if visit.outcome.isSkipped then 1 else 0) =
        journey.report.skipped ∧
      ∃ before behind,
        journey.report.failures = before ++ failed :: behind ∧
          without.report.failures = before ++ behind := by
  have notEvaluated := (Visit.nothing_of_failure? fails).2
  have others :
      journey.visits.eraseIdx earlier.length = earlier ++ later := by
    rw [whole, eraseIdx_append_cons]
  have sameReport :
      without.report = report ⟨without.scopes, earlier ++ later⟩ := by
    rw [← report_heading without, heading, part, others]
    exact report_heading ⟨without.scopes, earlier ++ later⟩
  rw [sameReport]
  simp only [report, whole, List.countP_append, List.countP_cons, notEvaluated,
    List.filterMap_append, List.filterMap_cons, fails]
  refine ⟨rfl, ?_, _, _, rfl, rfl⟩
  omega

namespace Evaluator

/-- The walk visits at most the commands of the tree. -/
theorem length_visits_walk_le
    (evaluator : Evaluator)
    (commands : List Script.Command)
    (cursor : Position)
    (scopes : Scopes) :
    (evaluator.walk commands cursor scopes).visits.length ≤
      (Script.flatten commands).length := by
  have noVisits : (Walk.start scopes).visits.length = 0 := rfl
  have fewer :=
    Walk.length_visits_le evaluator cursor (.start scopes)
      (Script.traceAll commands)
  rw [noVisits, Nat.zero_add, Script.headings, ← Script.flatten_eq_trace] at fewer
  rwa [visits_walk, List.length_reverse]

/-- Without a visited command that has no block and failed, the walk ends in the same
scopes, and the other visits are the same up to the blocks behind their headings. -/
theorem visits_walk_eraseAt
    {evaluator : Evaluator}
    {commands : List Script.Command}
    {cursor : Position}
    {scopes : Scopes}
    {number : Nat}
    {visit : Visit}
    {failed : CommandFailure}
    (visited :
      (evaluator.walk commands cursor scopes).visits[number]? = some visit)
    (plain : visit.command.block = none)
    (fails : visit.failure? = some failed)
    (readsHeadings :
      Script.standsInBlock number commands = true →
      AllModules Module.ReadsHeadings scopes.bindings) :
    let journey := evaluator.walk commands cursor scopes
    let without :=
      evaluator.walk (Script.eraseAt number commands) cursor scopes
    (Script.flatten commands)[number]? = some visit.command ∧
      without.scopes = journey.scopes ∧
      ∃ earlier kept later,
        journey.visits = earlier ++ visit :: later ∧
          without.visits = kept ++ later ∧
          kept.map Visit.heading = earlier.map Visit.heading ∧
          earlier.length = number := by
  intro journey without
  have inTime : number < (Script.flatten commands).length :=
    Nat.lt_of_lt_of_le (List.getElem?_eq_some_iff.mp visited).1
      (length_visits_walk_le evaluator commands cursor scopes)
  obtain ⟨gone, isGone⟩ : ∃ gone, (Script.flatten commands)[number]? = some gone :=
    ⟨_, List.getElem?_eq_getElem inTime⟩
  obtain ⟨before, kept, behind, whole, part, same, rfl, atTop⟩ :=
    Script.takesOut_eraseAt commands isGone
  obtain ⟨inside, shape⟩ := gone.trace_eq_visit_cons
  rw [shape, List.cons_append] at whole
  rw [visits_walk, whole] at visited
  obtain ⟨going, counted, above, isVisit⟩ := Walk.visit_of_getElem? visited
  have isCommand : visit.command = gone := by
    rw [isVisit, command_visit]
  rw [isCommand] at plain ⊢
  rw [isVisit] at fails
  obtain rfl : inside = [] := by
    simpa [Script.Command.trace_of_plain plain] using shape
  have startReads :
      Script.standsInBlock (Script.headings before).length commands = true →
      (Walk.start scopes).ReadsHeadings :=
    readsHeadings
  have sameThere :
      (kept.foldl (Walk.follow evaluator cursor) (.start scopes)).heading =
        (before.foldl (Walk.follow evaluator cursor) (.start scopes)).heading :=
    Walk.heading_foldl_follow_eq same atTop startReads
  obtain ⟨onward, wholeWalk, partWalk⟩ :=
    Walk.foldl_follow_behind_failure sameThere going above plain fails behind
  rw [← isVisit] at wholeWalk
  refine ⟨isGone, ?_, ?_⟩
  · simp only [journey, without, walk_eq_trace, whole, part, List.foldl_append,
      List.nil_append, wholeWalk, partWalk]
    rfl
  · refine
      ⟨(before.foldl (Walk.follow evaluator cursor) (.start scopes)).visits.reverse,
        (kept.foldl (Walk.follow evaluator cursor) (.start scopes)).visits.reverse,
        onward.visits.reverse, ?_, ?_, ?_, ?_⟩
    · simp only [journey, walk_eq_trace, whole, List.foldl_append,
        List.nil_append, wholeWalk]
      simp [Walk.onto]
    · simp only [without, walk_eq_trace, part, List.foldl_append, partWalk]
      simp [Walk.onto]
    · have sameVisits := congrArg Walk.visits sameThere
      simpa [Walk.heading, List.map_reverse] using sameVisits
    · rw [List.length_reverse, counted]

/--
A failure stays where it is.  For all trees, cursors, scopes and evaluators, if a
visited command has no block and belongs to no module, or if its evaluation fails or
takes too long, then without it the walk ends in the same scopes, all other commands
are visited with the same outcomes, and of the report nothing is gone but the entry of
the command.  Evaluators may do whatever they like if the command stands outside of
blocks, and else may not look into the blocks of the commands that they evaluate.
-/
theorem failed_command_isolated
    (evaluator : Evaluator)
    (commands : List Script.Command)
    (cursor : Position)
    (scopes : Scopes)
    {number : Nat}
    {visit : Visit}
    {failed : CommandFailure}
    (visited :
      (evaluator.walk commands cursor scopes).visits[number]? = some visit)
    (plain : visit.command.block = none)
    (fails : visit.failure? = some failed)
    (readsHeadings :
      Script.standsInBlock number commands = true →
      AllModules Module.ReadsHeadings scopes.bindings) :
    let journey := evaluator.walk commands cursor scopes
    let without :=
      evaluator.walk (Script.eraseAt number commands) cursor scopes
    (Script.flatten commands)[number]? = some visit.command ∧
      (Script.flatten (Script.eraseAt number commands)).map
          Script.Command.heading =
        ((Script.flatten commands).eraseIdx number).map Script.Command.heading ∧
      without.scopes = journey.scopes ∧
      without.visits.map Visit.heading =
        (journey.visits.eraseIdx number).map Visit.heading ∧
      without.report.evaluated = journey.report.evaluated ∧
      without.report.skipped + (if visit.outcome.isSkipped then 1 else 0) =
        journey.report.skipped ∧
      ∃ earlier later,
        journey.report.failures = earlier ++ failed :: later ∧
          without.report.failures = earlier ++ later := by
  intro journey without
  obtain ⟨isCommand, sameScopes, earlier, kept, later, whole, part, same, rfl⟩ :=
    visits_walk_eraseAt visited plain fails readsHeadings
  have sameVisits :
      without.visits.map Visit.heading =
        (journey.visits.eraseIdx earlier.length).map Visit.heading := by
    rw [whole, part, eraseIdx_append_cons, List.map_append, List.map_append, same]
  refine ⟨isCommand, Script.headings_flatten_eraseAt isCommand plain, sameScopes,
    sameVisits, ?_⟩
  exact Journey.report_without whole sameVisits fails

/-- A command without its value, in a block that goes on behind it. -/
theorem failed_command_isolated_inside_block :
    let text :=
      "connect 0x2222222222222222222222222222222222222222 (\n" ++
        "  set $x\n  set $y $dao\n"
    let commands := (Script.parse text).commands
    let scopes : Scopes :=
      { innermost :=
          { bindings :=
              [.ofModule Script.standardName (standardModule []),
                .ofModule Aragon.name aragonModule]
            context := none }
        outer := [] }
    let evaluator := Engine.standalone.evaluator
    let journey := evaluator.walk commands ⟨3, 0⟩ scopes
    let without := evaluator.walk (Script.eraseAt 1 commands) ⟨3, 0⟩ scopes
    let failed : CommandFailure :=
      ⟨"set", some 1, .evaluation (.missingArgument "set" "value")⟩
    Script.standsInBlock 1 commands = true ∧
      journey.visits[1]?.map (fun visit =>
          (visit.command.block, visit.failure?)) =
        some (none, some failed) ∧
      without.scopes = journey.scopes ∧
      without.visits.map Visit.heading =
        (journey.visits.eraseIdx 1).map Visit.heading := by
  intro text commands scopes evaluator journey without failed
  have readsHeadings : AllModules Module.ReadsHeadings scopes.bindings := by
    intro binding member module isModule
    have isBound :
        binding = .ofModule Script.standardName (standardModule []) ∨
          binding = .ofModule Aragon.name aragonModule := by
      simpa [scopes, Scopes.bindings, Scopes.frames] using member
    rcases isBound with rfl | rfl
    · cases isModule
      exact standardModule_readsHeadings []
    · cases isModule
      exact aragonModule_readsHeadings
  have fails :
      journey.visits[1]?.map (fun visit =>
          (visit.command.block, visit.failure?)) =
        some (none, some failed) := by
    decide +kernel
  obtain ⟨visit, visited, became⟩ := Option.map_eq_some_iff.mp fails
  obtain ⟨isPlain, isFailure⟩ := Prod.mk.inj became
  have isolated :=
    failed_command_isolated evaluator commands ⟨3, 0⟩ scopes visited isPlain
      isFailure fun _ => readsHeadings
  exact ⟨by decide +kernel, fails, isolated.2.2.1, isolated.2.2.2.1⟩

/--
An evaluator that looks into the block of its command finds a command there that fails,
and binds a variable for it: without the failed command the variable is gone.
-/
theorem failure_found_in_block :
    let commands := (Script.parse "count (\n  nope\n").commands
    let scopes := Scopes.root.bind (.ofModule "m" blockReader)
    let evaluator := Engine.standalone.evaluator
    let journey := evaluator.walk commands ⟨2, 0⟩ scopes
    let without := evaluator.walk (Script.eraseAt 1 commands) ⟨2, 0⟩ scopes
    let failed : CommandFailure :=
      ⟨"nope", some 1, .resolution (.unknownCommand "nope")⟩
    let bound (visit : Visit) := visit.outcome.bindings.map BindingOf.name
    journey.visits[1]?.map (fun visit =>
          (visit.command.block, visit.failure?)) =
        some (none, some failed) ∧
      journey.scopes.visibleNames .variable = ["$busy"] ∧
      without.scopes.visibleNames .variable = [] ∧
      journey.visits.map bound = [["$busy"], []] ∧
      without.visits.map bound = [[]] := by
  decide +kernel

end Evaluator

end ScriptCompletion
