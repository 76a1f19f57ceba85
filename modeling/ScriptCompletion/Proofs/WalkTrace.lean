import ScriptCompletion.Proofs.Outline
import ScriptCompletion.Walk

namespace ScriptCompletion

open Script (Event)

/-!
# The walk as a fold over events

The walk to the cursor goes through a tree of commands, and yet it only ever
looks at what it meets next: it is the fold of one step over the trace of the
tree.  Ends of blocks in a trace belong to blocks that were entered, so a walk
never leaves the scope that it started in.
-/

namespace Script

/-- Whether an event leaves the cursor still to be reached. -/
def Event.isPassed
    (event : Event)
    (cursor : Position) : Bool :=
  match event with
  | .visit command =>
      isAbove command cursor
  | .close range closed =>
      !Block.encloses ⟨[], range, closed⟩ cursor

/-- What starts or ends behind the line of the cursor is not passed. -/
theorem Event.isPassed_of_isBehind
    {event : Event}
    {cursor : Position}
    (behind : event.IsBehind cursor.line) :
    event.isPassed cursor = false := by
  cases event with
  | visit command =>
      simp only [isPassed, isAbove]
      cases starts : command.startLine with
      | none =>
          rfl
      | some line =>
          have := behind line starts
          simp only [decide_eq_false_iff_not]
          omega
  | close range closed =>
      cases closed with
      | false =>
          rfl
      | true =>
          cases range with
          | none =>
              rfl
          | some range =>
              have later := behind range.stop.line rfl
              have inside : cursor < range.stop :=
                Position.lt_iff.mpr (.inl later)
              simp [isPassed, Block.encloses, inside]

/-- What starts or ends above the line of the cursor is passed. -/
theorem Event.isPassed_of_line?
    {event : Event}
    {cursor : Position}
    {line : Nat}
    (isLine : event.line? = some line)
    (above : line < cursor.line) :
    event.isPassed cursor = true := by
  cases event with
  | visit command =>
      have starts : command.startLine = some line := isLine
      simp [isPassed, isAbove, starts, above]
  | close range closed =>
      cases closed with
      | false =>
          cases isLine
      | true =>
          cases range with
          | none =>
              cases isLine
          | some range =>
              have ends : range.stop.line = line := by
                simpa [line?] using isLine
              have outside : ¬ cursor < range.stop := by
                rw [Position.lt_iff]
                omega
              simp [isPassed, Block.encloses, outside]

/-- What is met before a command above the cursor is passed. -/
theorem Event.isPassed_of_precedes
    {event : Event}
    {command : Command}
    (precedes : event.Precedes (.visit command))
    {cursor : Position}
    (above : isAbove command cursor = true) :
    event.isPassed cursor = true := by
  unfold isAbove at above
  cases starts : command.startLine with
  | none =>
      simp [starts] at above
  | some line =>
      obtain ⟨earlier, isEarlier, inTime⟩ := precedes line starts
      simp only [starts, decide_eq_true_eq] at above
      exact isPassed_of_line? isEarlier (Nat.lt_of_le_of_lt inTime above)

@[simp]
theorem Event.isPassed_heading
    (event : Event)
    (cursor : Position) :
    event.heading.isPassed cursor = event.isPassed cursor := by
  cases event with
  | visit command =>
      simp [heading, isPassed, isAbove]
  | close range closed =>
      rfl

/-- Every end of a block belongs to a block that is open, when the given number
of blocks is open before. -/
def Nested : Nat → List Event → Prop
  | _, [] =>
      True
  | depth, .visit command :: rest =>
      Nested (if command.block.isSome then depth + 1 else depth) rest
  | 0, .close _ _ :: _ =>
      False
  | depth + 1, .close _ _ :: rest =>
      Nested depth rest

mutual

/-- A command closes the block that it opens. -/
theorem Command.nested_trace
    (depth : Nat)
    (command : Command)
    (rest : List Event) :
    Nested depth (command.trace ++ rest) ↔ Nested depth rest := by
  match command with
  | ⟨qualifier, name, arguments, range, nameRange, none⟩ =>
      simp [Command.trace, Nested]
  | ⟨qualifier, name, arguments, range, nameRange,
      some ⟨commands, blockRange, closed⟩⟩ =>
      simp only [Command.trace, List.cons_append, List.append_assoc, Nested,
        Option.isSome_some, ↓reduceIte]
      rw [nested_traceAll (depth + 1) commands]
      simp [Nested]

/-- Commands close the blocks that they open. -/
theorem nested_traceAll
    (depth : Nat)
    (commands : List Command)
    (rest : List Event) :
    Nested depth (traceAll commands ++ rest) ↔ Nested depth rest := by
  match commands with
  | [] =>
      simp [traceAll]
  | command :: later =>
      rw [traceAll, List.append_assoc, Command.nested_trace depth command,
        nested_traceAll depth later]

end

theorem nested_map_heading
    (depth : Nat)
    (events : List Event) :
    Nested depth (events.map Event.heading) ↔ Nested depth events := by
  induction events generalizing depth with
  | nil =>
      exact Iff.rfl
  | cons event rest inductionHypothesis =>
      cases event with
      | visit command =>
          simpa [Event.heading, Nested] using inductionHypothesis _
      | close range closed =>
          cases depth with
          | zero =>
              exact Iff.rfl
          | succ depth =>
              simpa [Event.heading, Nested] using inductionHypothesis depth

/-- In an outline every end of a block belongs to an open block. -/
theorem nested_outline (commands : List Command) :
    Nested 0 (outline commands) := by
  have closed := nested_traceAll 0 commands []
  rw [List.append_nil] at closed
  rw [outline, nested_map_heading, closed]
  trivial

/-- The first events are nested if all are. -/
theorem Nested.of_append
    {depth : Nat}
    {first second : List Event}
    (nested : Nested depth (first ++ second)) :
    Nested depth first := by
  induction first generalizing depth with
  | nil =>
      trivial
  | cons event rest inductionHypothesis =>
      cases event with
      | visit command =>
          exact inductionHypothesis nested
      | close range closed =>
          cases depth with
          | zero =>
              exact nested
          | succ depth =>
              exact inductionHypothesis nested

/-- Further open blocks do no harm. -/
theorem Nested.mono
    {depth more : Nat}
    {events : List Event}
    (nested : Nested depth events)
    (notFewer : depth ≤ more) :
    Nested more events := by
  induction events generalizing depth more with
  | nil =>
      trivial
  | cons event rest inductionHypothesis =>
      cases event with
      | visit command =>
          refine inductionHypothesis nested ?_
          split <;> omega
      | close range closed =>
          cases depth with
          | zero =>
              exact nested.elim
          | succ depth =>
              cases more with
              | zero =>
                  omega
              | succ more =>
                  exact inductionHypothesis nested (by omega)

end Script

namespace Walk

/-- Go on to the next event, unless the cursor has been reached. -/
def follow
    (evaluator : Evaluator)
    (cursor : Position)
    (walk : Walk)
    (event : Event) : Walk :=
  if walk.arrived then
    walk
  else if event.isPassed cursor then
    match event with
    | .visit command =>
        let visit := evaluator.visit walk.scopes command
        if command.block.isSome then
          walk.enter visit
        else
          walk.pass visit
    | .close _ _ =>
        walk.leave
  else
    walk.arrive

variable {evaluator : Evaluator} {cursor : Position}

theorem follow_of_arrived
    {walk : Walk}
    (arrived : walk.arrived = true)
    (event : Event) :
    walk.follow evaluator cursor event = walk := by
  simp [follow, arrived]

/-- A walk that has arrived goes no further. -/
theorem foldl_follow_of_arrived
    {walk : Walk}
    (arrived : walk.arrived = true)
    (events : List Event) :
    events.foldl (follow evaluator cursor) walk = walk := by
  induction events with
  | nil =>
      rfl
  | cons event rest inductionHypothesis =>
      rw [List.foldl_cons, follow_of_arrived arrived, inductionHypothesis]

/-- A walk arrives at what is not passed. -/
theorem follow_of_not_passed
    {walk : Walk}
    (going : walk.arrived = false)
    {event : Event}
    (reached : event.isPassed cursor = false) :
    walk.follow evaluator cursor event = walk.arrive := by
  simp [follow, going, reached]

theorem follow_visit
    {walk : Walk}
    (going : walk.arrived = false)
    {command : Script.Command}
    (above : isAbove command cursor = true) :
    walk.follow evaluator cursor (.visit command) =
      if command.block.isSome then
        walk.enter (evaluator.visit walk.scopes command)
      else
        walk.pass (evaluator.visit walk.scopes command) := by
  simp [follow, going, Event.isPassed, above]

theorem follow_close
    {walk : Walk}
    (going : walk.arrived = false)
    {range : Option Span}
    {closed : Bool}
    (passed : (Event.close range closed).isPassed cursor = true) :
    walk.follow evaluator cursor (.close range closed) = walk.leave := by
  simp [follow, going, passed]

mutual

/-- The walk through a command follows its trace. -/
theorem throughCommand_eq_trace
    {walk : Walk}
    (going : walk.arrived = false)
    (command : Script.Command) :
    throughCommand evaluator cursor walk command =
      command.trace.foldl (follow evaluator cursor) walk := by
  match command with
  | ⟨qualifier, name, arguments, range, nameRange, none⟩ =>
      unfold throughCommand
      split
      · rename_i above
        simp [Script.Command.trace, follow_visit going above]
      · rename_i notAbove
        have reached :=
          Bool.eq_false_iff.mpr notAbove
        simp [Script.Command.trace, follow, going, Event.isPassed, reached]
  | ⟨qualifier, name, arguments, range, nameRange,
      some ⟨commands, blockRange, closed⟩⟩ =>
      unfold throughCommand
      split
      · rename_i above
        have entered :
            (walk.enter
              (evaluator.visit walk.scopes
                ⟨qualifier, name, arguments, range, nameRange,
                  some ⟨commands, blockRange, closed⟩⟩)).arrived = false :=
          going
        have inside := throughAll_eq_trace entered commands
        have passes :
            (Event.close blockRange closed).isPassed cursor =
              !Script.Block.encloses ⟨commands, blockRange, closed⟩ cursor :=
          rfl
        simp only [Script.Command.trace, List.foldl_cons, List.foldl_append,
          follow_visit going above, Option.isSome_some, ↓reduceIte,
          List.foldl_nil]
        rw [← inside]
        split
        · rename_i arrived
          rw [follow_of_arrived arrived]
        · rename_i notArrived
          have stillGoing := Bool.eq_false_iff.mpr notArrived
          split
          · rename_i encloses
            rw [follow_of_not_passed stillGoing]
            rw [passes, encloses, Bool.not_true]
          · rename_i outside
            rw [follow_close stillGoing]
            rw [passes, Bool.eq_false_iff.mpr outside, Bool.not_false]
      · rename_i notAbove
        have arrived : walk.arrive.arrived = true := rfl
        have reached :
            (Event.visit
              ⟨qualifier, name, arguments, range, nameRange,
                some ⟨commands, blockRange, closed⟩⟩).isPassed cursor =
              false :=
          Bool.eq_false_iff.mpr notAbove
        rw [Script.Command.trace, List.foldl_cons,
          follow_of_not_passed going reached,
          foldl_follow_of_arrived arrived]

/-- The walk through commands follows their trace. -/
theorem throughAll_eq_trace
    {walk : Walk}
    (going : walk.arrived = false)
    (commands : List Script.Command) :
    throughAll evaluator cursor walk commands =
      (Script.traceAll commands).foldl (follow evaluator cursor) walk := by
  match commands with
  | [] =>
      simp [throughAll, Script.traceAll]
  | command :: rest =>
      have first := throughCommand_eq_trace going command
      rw [throughAll, Script.traceAll, List.foldl_append, ← first]
      split
      · rename_i arrived
        rw [foldl_follow_of_arrived arrived]
      · rename_i notArrived
        exact throughAll_eq_trace (Bool.eq_false_iff.mpr notArrived) rest

end

/-- Events that are not passed are never visited and change no scope. -/
theorem foldl_follow_of_not_passed
    (walk : Walk)
    {events : List Event}
    (reached : ∀ event ∈ events, event.isPassed cursor = false) :
    (events.foldl (follow evaluator cursor) walk).scopes = walk.scopes ∧
      (events.foldl (follow evaluator cursor) walk).visits = walk.visits := by
  cases events with
  | nil =>
      exact ⟨rfl, rfl⟩
  | cons event rest =>
      cases arrived : walk.arrived with
      | true =>
          rw [foldl_follow_of_arrived arrived]
          exact ⟨rfl, rfl⟩
      | false =>
          have hasArrived : walk.arrive.arrived = true := rfl
          rw [List.foldl_cons,
            follow_of_not_passed arrived (reached event (by simp)),
            foldl_follow_of_arrived hasArrived]
          exact ⟨rfl, rfl⟩

/-- A command above the cursor is visited, and its block is entered. -/
theorem follow_visit_spec
    (evaluator : Evaluator)
    {walk : Walk}
    (going : walk.arrived = false)
    {command : Script.Command}
    (above : isAbove command cursor = true) :
    let next := walk.follow evaluator cursor (.visit command)
    next.arrived = false ∧
      next.visits = evaluator.visit walk.scopes command :: walk.visits ∧
      next.scopes.depth =
        if command.block.isSome then
          walk.scopes.depth + 1
        else
          walk.scopes.depth := by
  intro next
  have unfolded : next = _ := follow_visit going above
  rw [unfolded]
  split
  · refine ⟨going, rfl, ?_⟩
    simp [enter, Scopes.depth, Scopes.enter, Scopes.frames]
  · refine ⟨going, rfl, ?_⟩
    simp [pass, Scopes.depth]

/-- At the end of a block that the cursor is not inside of, the block is left. -/
theorem follow_close_spec
    (evaluator : Evaluator)
    {walk : Walk}
    (going : walk.arrived = false)
    {range : Option Span}
    {closed : Bool}
    (passed : (Event.close range closed).isPassed cursor = true)
    {depth : Nat}
    (inside : walk.scopes.depth = depth + 1) :
    let next := walk.follow evaluator cursor (.close range closed)
    next.arrived = false ∧
      next.visits = walk.visits ∧
      next.scopes.depth = depth := by
  intro next
  have unfolded : next = walk.leave := follow_close going passed
  rw [unfolded, leave, Scopes.exit]
  cases outer : walk.scopes.outer with
  | nil =>
      simp [Scopes.depth, outer] at inside
  | cons frame frames =>
      simp only [Scopes.depth, outer, List.length_cons,
        Nat.add_right_cancel_iff] at inside
      exact ⟨going, rfl, inside⟩

/-- A walk that passes all events visits every command among them once. -/
theorem foldl_follow_of_passed
    {walk : Walk}
    (going : walk.arrived = false)
    {events : List Event}
    (nested : Script.Nested walk.scopes.depth events)
    (passed : ∀ event ∈ events, event.isPassed cursor = true) :
    (events.foldl (follow evaluator cursor) walk).arrived = false ∧
      (events.foldl (follow evaluator cursor) walk).visits.length =
        walk.visits.length + (Script.headings events).length := by
  induction events generalizing walk with
  | nil =>
      exact ⟨going, rfl⟩
  | cons event rest inductionHypothesis =>
      have passedNow : event.isPassed cursor = true :=
        passed event (by simp)
      have passedLater :
          ∀ later ∈ rest, later.isPassed cursor = true :=
        fun later member => passed later (List.mem_cons_of_mem event member)
      rw [List.foldl_cons]
      cases event with
      | visit command =>
          obtain ⟨stillGoing, visited, depth⟩ :=
            follow_visit_spec evaluator going passedNow
          rw [Script.Nested, ← depth] at nested
          obtain ⟨arrives, counted⟩ :=
            inductionHypothesis stillGoing nested passedLater
          refine ⟨arrives, ?_⟩
          rw [counted, visited, Script.headings_visit, List.length_cons,
            List.length_cons]
          omega
      | close range closed =>
          cases inside : walk.scopes.depth with
          | zero =>
              rw [inside] at nested
              exact nested.elim
          | succ outer =>
              obtain ⟨stillGoing, visited, depth⟩ :=
                follow_close_spec evaluator going passedNow inside
              rw [inside, Script.Nested, ← depth] at nested
              obtain ⟨arrives, counted⟩ :=
                inductionHypothesis stillGoing nested passedLater
              refine ⟨arrives, ?_⟩
              rw [counted, visited, Script.headings_close]

/-- What a step can do: nothing to the scopes, visit the command that it meets, or leave
a scope. -/
theorem follow_cases
    (evaluator : Evaluator)
    (cursor : Position)
    (walk : Walk)
    (event : Event) :
    let next := walk.follow evaluator cursor event
    next.scopes = walk.scopes ∧ next.visits = walk.visits ∨
      (∃ command,
        let visit := evaluator.visit walk.scopes command
        let opened :=
          if command.block.isSome then
            walk.scopes.enter visit.outcome.key?
          else
            walk.scopes
        event = .visit command ∧
          next.scopes = opened.bindAll visit.outcome.bindings ∧
          next.visits = visit :: walk.visits) ∨
      walk.scopes.exit = .ok next.scopes ∧ next.visits = walk.visits := by
  intro next
  have unfolded : next = walk.follow evaluator cursor event := rfl
  unfold follow at unfolded
  split at unfolded
  · rw [unfolded]
    exact .inl ⟨rfl, rfl⟩
  · split at unfolded
    · cases event with
      | visit command =>
          refine .inr (.inl ⟨command, rfl, ?_⟩)
          rw [unfolded]
          simp only
          split
          · exact ⟨rfl, rfl⟩
          · exact ⟨rfl, rfl⟩
      | close range closed =>
          simp only [leave] at unfolded
          split at unfolded
          · rename_i outside left
            rw [unfolded]
            exact .inr (.inr ⟨left, rfl⟩)
          · rw [unfolded]
            exact .inl ⟨rfl, rfl⟩
    · rw [unfolded]
      exact .inl ⟨rfl, rfl⟩

/-- A step visits the command that it meets where the walk stands, or nothing. -/
theorem visits_follow_cases
    (walk : Walk)
    (event : Event) :
    (walk.follow evaluator cursor event).visits = walk.visits ∨
      ∃ command,
        event = .visit command ∧
          (walk.follow evaluator cursor event).visits =
            evaluator.visit walk.scopes command :: walk.visits := by
  rcases follow_cases evaluator cursor walk event with
    ⟨-, sameVisits⟩ | ⟨command, isVisit, -, visited⟩ | ⟨-, sameVisits⟩
  · exact .inl sameVisits
  · exact .inr ⟨command, isVisit, visited⟩
  · exact .inl sameVisits

/-- Visits are only ever added. -/
theorem visits_follow
    (walk : Walk)
    (event : Event) :
    ∃ added,
      (walk.follow evaluator cursor event).visits = added ++ walk.visits := by
  rcases visits_follow_cases walk event with
    nothing | ⟨command, -, visited⟩
  · exact ⟨[], nothing⟩
  · exact ⟨[evaluator.visit walk.scopes command], visited⟩

theorem visits_foldl_follow
    (walk : Walk)
    (events : List Event) :
    ∃ added,
      (events.foldl (follow evaluator cursor) walk).visits =
        added ++ walk.visits := by
  induction events generalizing walk with
  | nil =>
      exact ⟨[], rfl⟩
  | cons event rest inductionHypothesis =>
      obtain ⟨later, sameLater⟩ :=
        inductionHypothesis (walk.follow evaluator cursor event)
      obtain ⟨now, sameNow⟩ :=
        visits_follow walk event
      refine ⟨later ++ now, ?_⟩
      rw [List.foldl_cons, sameLater, sameNow, List.append_assoc]

/-- A command that the walk comes to is visited where the walk stands then. -/
theorem visits_of_beginning
    {walk : Walk}
    (going : walk.arrived = false)
    {before : List Event}
    (nested : Script.Nested walk.scopes.depth before)
    (passed : ∀ event ∈ before, event.isPassed cursor = true)
    {command : Script.Command}
    (above : isAbove command cursor = true)
    (later : List Event) :
    let there := before.foldl (follow evaluator cursor) walk
    there.visits.length =
        walk.visits.length + (Script.headings before).length ∧
      ∃ added,
        ((before ++ .visit command :: later).foldl (follow evaluator cursor)
            walk).visits =
          added ++ evaluator.visit there.scopes command :: there.visits := by
  intro there
  have reached :
      there.arrived = false ∧
        there.visits.length =
          walk.visits.length + (Script.headings before).length :=
    foldl_follow_of_passed going nested passed
  refine ⟨reached.2, ?_⟩
  obtain ⟨added, sameVisits⟩ :=
    visits_foldl_follow (there.follow evaluator cursor (.visit command)) later
  refine ⟨added, ?_⟩
  rw [List.foldl_append, List.foldl_cons, sameVisits,
    (follow_visit_spec evaluator reached.1 above).2.1]

end Walk

/-- The walk through a tree is the fold over its trace. -/
theorem Evaluator.walk_eq_trace
    (evaluator : Evaluator)
    (commands : List Script.Command)
    (cursor : Position)
    (scopes : Scopes) :
    let walk :=
      (Script.traceAll commands).foldl (Walk.follow evaluator cursor)
        (.start scopes)
    evaluator.walk commands cursor scopes =
      ⟨walk.scopes, walk.visits.reverse⟩ := by
  have going : (Walk.start scopes).arrived = false := rfl
  simp only [walk, Walk.throughAll_eq_trace going]

end ScriptCompletion
