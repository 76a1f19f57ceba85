import Mathlib.Logic.Relation
import ScriptCompletion.Proofs.OpenBlocks
import ScriptCompletion.Proofs.VisibleBindings

namespace ScriptCompletion

open Script (Event)

/-!
# The stack of scopes is safe

The walk to the cursor can be taken in turns, with a stack of the blocks that it is in
the middle of.  In one turn it visits a command or comes to the end of a block, and what
is still to come grows less, so it ends, and where it ends is where the walk through the
tree ends.

A scope is opened where a block comes onto the stack and left where the block goes off
it.  So whatever the positions in the tree say, there is one scope more for every block on
the stack: a scope that is left is never one that was there before the walk, and of the
frames that were there only the innermost one is bound to.
-/

/-- Bindings that are added in two goes are added one after another. -/
theorem Frame.bindAll_append
    (frame : Frame)
    (first second : List Binding) :
    frame.bindAll (first ++ second) = (frame.bindAll first).bindAll second := by
  simp only [bindAll, Keyed.putAll, List.foldl_append]

namespace Scopes

/-- The given number of scopes has been opened in scopes that are as they were, but for
what was bound in the innermost one. -/
def StandOn
    (start : Scopes)
    (opened : Nat)
    (scopes : Scopes) : Prop :=
  ∃ own bound,
    own.length = opened ∧
      scopes.frames = own ++ start.innermost.bindAll bound :: start.outer

namespace StandOn

variable {start scopes : Scopes} {opened : Nat}

theorem refl (start : Scopes) :
    start.StandOn 0 start :=
  ⟨[], [], rfl, rfl⟩

theorem depth
    (standOn : start.StandOn opened scopes) :
    scopes.depth = start.depth + opened := by
  obtain ⟨own, bound, rfl, shape⟩ := standOn
  have counted := congrArg List.length shape
  simp only [frames, List.length_cons, List.length_append] at counted
  simp only [Scopes.depth]
  omega

theorem enter
    (standOn : start.StandOn opened scopes)
    (context : Option String) :
    start.StandOn (opened + 1) (scopes.enter context) := by
  obtain ⟨own, bound, rfl, shape⟩ := standOn
  refine ⟨.empty context :: own, bound, rfl, ?_⟩
  have entered :
      (scopes.enter context).frames = .empty context :: scopes.frames :=
    rfl
  rw [entered, shape, List.cons_append]

theorem bindAll
    (standOn : start.StandOn opened scopes)
    (added : List Binding) :
    start.StandOn opened (scopes.bindAll added) := by
  obtain ⟨own, bound, rfl, shape⟩ := standOn
  cases own with
  | nil =>
      obtain ⟨sameInnermost, sameOuter⟩ := List.cons.inj shape
      refine ⟨[], bound ++ added, rfl, ?_⟩
      rw [frames_bindAll, sameInnermost, sameOuter, ← Frame.bindAll_append]
      rfl
  | cons innermost further =>
      have around :
          scopes.outer = further ++ start.innermost.bindAll bound :: start.outer :=
        (List.cons.inj shape).2
      refine ⟨scopes.innermost.bindAll added :: further, bound, rfl, ?_⟩
      rw [frames_bindAll, around, List.cons_append]

/-- A scope that was opened can be left. -/
theorem exit
    (standOn : start.StandOn (opened + 1) scopes) :
    ∃ outside,
      scopes.exit = .ok outside ∧ start.StandOn opened outside := by
  obtain ⟨own, bound, counted, shape⟩ := standOn
  cases own with
  | nil =>
      cases counted
  | cons innermost further =>
      rw [List.length_cons, Nat.add_right_cancel_iff] at counted
      cases around : further ++ start.innermost.bindAll bound :: start.outer with
      | nil =>
          cases (List.append_eq_nil_iff.mp around).2
      | cons next outer =>
          rw [List.cons_append, around] at shape
          let outside : Scopes := ⟨next, outer⟩
          exact ⟨outside, exit_of_frames shape, further, bound, counted,
            around.symm⟩

end StandOn

end Scopes

/-- Commands that a walk is in the middle of: those that are still to come, and the block
that they stand in, unless they are those of the script itself. -/
structure WalkLevel where
  coming : List Script.Command
  block : Option (Script.Block Script.Command)

namespace WalkLevel

/-- What is still met on a level: its commands, and the end of its block. -/
def events (level : WalkLevel) : List Event :=
  Script.traceAll level.coming ++
    level.block.toList.map fun block => .close block.range block.closed

/-- The end of a block is met on the level of its commands, behind them. -/
theorem events_of_block
    {command : Script.Command}
    {rest : List Script.Command}
    {around : Option (Script.Block Script.Command)}
    {block : Script.Block Script.Command}
    (opens : command.block = some block) :
    events ⟨command :: rest, around⟩ =
      .visit command ::
        (events ⟨block.commands, some block⟩ ++
          events ⟨rest, around⟩) := by
  simp [events, Script.traceAll, Script.Command.trace_of_block opens]

theorem events_of_plain
    {command : Script.Command}
    {rest : List Script.Command}
    {around : Option (Script.Block Script.Command)}
    (plain : command.block = none) :
    events ⟨command :: rest, around⟩ =
      .visit command :: events ⟨rest, around⟩ := by
  simp [events, Script.traceAll, Script.Command.trace_of_plain plain]

end WalkLevel

/-- A walk that is taken in turns.  Levels are innermost first, visits latest first. -/
structure WalkLoop where
  levels : List WalkLevel
  scopes : Scopes
  visits : List Visit

/-- What a turn of the walk leads to. -/
inductive WalkTurn where
  | goesOn (next : WalkLoop)
  /-- There is nothing left, or the cursor was reached. -/
  | stops
  /-- The scope of a block could not be left. -/
  | fails (error : ScopeError)

namespace WalkLoop

/-- A walk before its first turn. -/
def start
    (commands : List Script.Command)
    (scopes : Scopes) : WalkLoop where
  levels := [⟨commands, none⟩]
  scopes := scopes
  visits := []

/-- Take one turn. -/
def turn
    (evaluator : Evaluator)
    (cursor : Position)
    (loop : WalkLoop) : WalkTurn :=
  match loop.levels with
  | [] =>
      .stops
  | ⟨[], none⟩ :: outer =>
      .goesOn { loop with levels := outer }
  | ⟨[], some block⟩ :: outer =>
      if block.encloses cursor then
        .stops
      else
        match loop.scopes.exit with
        | .error error =>
            .fails error
        | .ok scopes =>
            .goesOn { loop with levels := outer, scopes := scopes }
  | ⟨command :: rest, around⟩ :: outer =>
      if isAbove command cursor then
        let visit := evaluator.visit loop.scopes command
        match command.block with
        | none =>
            .goesOn
              { levels := ⟨rest, around⟩ :: outer
                scopes := loop.scopes.bindAll visit.outcome.bindings
                visits := visit :: loop.visits }
        | some block =>
            .goesOn
              { levels := ⟨block.commands, some block⟩ :: ⟨rest, around⟩ :: outer
                scopes :=
                  (loop.scopes.enter visit.outcome.key?).bindAll
                    visit.outcome.bindings
                visits := visit :: loop.visits }
      else
        .stops

/-- The number of blocks that were entered and not left: a block comes onto the stack
when it is entered and goes off it when it is left. -/
def opened (loop : WalkLoop) : Nat :=
  loop.levels.countP fun level => level.block.isSome

/-- Whether a turn leads from one state of the walk to another. -/
def GoesOn
    (evaluator : Evaluator)
    (cursor : Position)
    (loop next : WalkLoop) : Prop :=
  loop.turn evaluator cursor = .goesOn next

variable {evaluator : Evaluator} {cursor : Position} {start : Scopes}
  {loop next : WalkLoop}

/-- What a turn can do: come to the end of the script, leave a block, visit a command
without a block, or visit a command and enter its block. -/
theorem turn_cases
    (goesOn : loop.GoesOn evaluator cursor next) :
    (∃ outer,
      loop.levels = ⟨[], none⟩ :: outer ∧
        next = { loop with levels := outer }) ∨
    (∃ block outer scopes,
      loop.levels = ⟨[], some block⟩ :: outer ∧
        block.encloses cursor = false ∧
        loop.scopes.exit = .ok scopes ∧
        next = { loop with levels := outer, scopes := scopes }) ∨
    ∃ command rest around outer,
      let visit := evaluator.visit loop.scopes command
      loop.levels = ⟨command :: rest, around⟩ :: outer ∧
        isAbove command cursor = true ∧
        (command.block = none ∧
            next =
              { levels := ⟨rest, around⟩ :: outer
                scopes := loop.scopes.bindAll visit.outcome.bindings
                visits := visit :: loop.visits } ∨
          ∃ block,
            command.block = some block ∧
              next =
                { levels :=
                    ⟨block.commands, some block⟩ :: ⟨rest, around⟩ :: outer
                  scopes :=
                    (loop.scopes.enter visit.outcome.key?).bindAll
                      visit.outcome.bindings
                  visits := visit :: loop.visits }) := by
  unfold GoesOn turn at goesOn
  split at goesOn
  · cases goesOn
  · rename_i outer isLevel
    cases goesOn
    exact .inl ⟨outer, isLevel, rfl⟩
  · rename_i block outer isLevel
    split at goesOn
    · cases goesOn
    · rename_i outside
      split at goesOn
      · cases goesOn
      · rename_i scopes left
        cases goesOn
        exact .inr (.inl
          ⟨block, outer, scopes, isLevel, Bool.eq_false_iff.mpr outside, left, rfl⟩)
  · rename_i command rest around outer isLevel
    split at goesOn
    · rename_i above
      refine .inr (.inr ⟨command, rest, around, outer, isLevel, above, ?_⟩)
      cases opens : command.block with
      | none =>
          simp only [opens] at goesOn
          cases goesOn
          exact .inl ⟨rfl, rfl⟩
      | some block =>
          simp only [opens] at goesOn
          cases goesOn
          exact .inr ⟨block, rfl, rfl⟩
    · cases goesOn

/-!
## There is one scope for every block on the stack
-/

/-- A turn keeps one scope for every block on the stack. -/
theorem standOn_turn
    (standOn : start.StandOn loop.opened loop.scopes)
    (goesOn : loop.GoesOn evaluator cursor next) :
    start.StandOn next.opened next.scopes := by
  rcases turn_cases goesOn with
    ⟨outer, isLevel, rfl⟩ |
    ⟨block, outer, scopes, isLevel, -, left, rfl⟩ |
    ⟨command, rest, around, outer, isLevel, -,
      ⟨-, rfl⟩ | ⟨block, -, rfl⟩⟩
  · -- The level of the script itself has no block, and no scope was opened for it.
    simpa [opened, isLevel] using standOn
  · have inside : loop.opened = outer.countP (·.block.isSome) + 1 := by
      simp [opened, isLevel]
    rw [inside] at standOn
    obtain ⟨outside, leads, around⟩ := standOn.exit
    rw [left, Except.ok.injEq] at leads
    exact leads ▸ around
  · have sameBlocks : loop.opened = _ := congrArg (List.countP _) isLevel
    rw [sameBlocks] at standOn
    simpa [opened, List.countP_cons] using standOn.bindAll _
  · have sameBlocks : loop.opened = _ := congrArg (List.countP _) isLevel
    rw [sameBlocks] at standOn
    simpa [opened, List.countP_cons] using (standOn.enter _).bindAll _

/-- All turns keep one scope for every block on the stack. -/
theorem standOn_of_reaches
    (standOn : start.StandOn loop.opened loop.scopes)
    (reaches : Relation.ReflTransGen (GoesOn evaluator cursor) loop next) :
    start.StandOn next.opened next.scopes := by
  induction reaches with
  | refl =>
      exact standOn
  | tail _ goesOn inductionHypothesis =>
      exact standOn_turn inductionHypothesis goesOn

/-- The scope of a block on the stack can be left. -/
theorem turn_ne_fails
    (standOn : start.StandOn loop.opened loop.scopes)
    (error : ScopeError) :
    loop.turn evaluator cursor ≠ .fails error := by
  intro fails
  unfold turn at fails
  split at fails
  · cases fails
  · cases fails
  · rename_i block outer isLevel
    have inside : loop.opened = outer.countP (·.block.isSome) + 1 := by
      simp [opened, isLevel]
    rw [inside] at standOn
    obtain ⟨outside, left, -⟩ := standOn.exit
    rw [left] at fails
    split at fails <;> cases fails
  · split at fails
    · split at fails <;> cases fails
    · cases fails

/-!
## The turns follow the trace of the script
-/

/-- What is still met in the walk. -/
def events (loop : WalkLoop) : List Event :=
  loop.levels.flatMap WalkLevel.events

/-- How far the walk has come, without what is still to come. -/
def walk (loop : WalkLoop) : Walk where
  scopes := loop.scopes
  visits := loop.visits
  arrived := false

/-- Where the walk ends that follows everything that is still met. -/
def ending
    (evaluator : Evaluator)
    (cursor : Position)
    (loop : WalkLoop) : Walk :=
  loop.events.foldl (Walk.follow evaluator cursor) loop.walk

theorem events_of_levels
    {level : WalkLevel}
    {outer : List WalkLevel}
    (isLevel : loop.levels = level :: outer) :
    loop.events = level.events ++ outer.flatMap WalkLevel.events := by
  rw [events, isLevel, List.flatMap_cons]

/-- A turn leads on to where the walk ends. -/
theorem ending_turn
    (goesOn : loop.GoesOn evaluator cursor next) :
    loop.ending evaluator cursor = next.ending evaluator cursor := by
  have going : loop.walk.arrived = false := rfl
  rcases turn_cases goesOn with
    ⟨outer, isLevel, rfl⟩ |
    ⟨block, outer, scopes, isLevel, outside, left, rfl⟩ |
    ⟨command, rest, around, outer, isLevel, above,
      ⟨plain, rfl⟩ | ⟨block, opens, rfl⟩⟩
  · rw [ending, events_of_levels isLevel]
    rfl
  · have passed :
        (Event.close block.range block.closed).isPassed cursor = true := by
      rw [Script.Block.isPassed_close, outside, Bool.not_false]
    have leaves :
        loop.walk.leave = { loop.walk with scopes := scopes } := by
      have exits : loop.walk.scopes.exit = .ok scopes := left
      rw [Walk.leave, exits]
    have closes :
        loop.events =
          .close block.range block.closed ::
            outer.flatMap WalkLevel.events := by
      rw [events_of_levels isLevel]
      rfl
    rw [ending, closes, List.foldl_cons, Walk.follow_close going passed, leaves]
    rfl
  · rw [ending, events_of_levels isLevel, WalkLevel.events_of_plain plain,
      List.cons_append, List.foldl_cons, Walk.follow_visit going above, plain]
    rfl
  · rw [ending, events_of_levels isLevel, WalkLevel.events_of_block opens,
      List.cons_append, List.foldl_cons, Walk.follow_visit going above, opens,
      List.append_assoc]
    rfl

/-- Where the turns stop, the walk ends. -/
theorem ending_of_stops
    (stops : loop.turn evaluator cursor = .stops) :
    (loop.ending evaluator cursor).scopes = loop.scopes ∧
      (loop.ending evaluator cursor).visits = loop.visits := by
  have going : loop.walk.arrived = false := rfl
  have arrived : loop.walk.arrive.arrived = true := rfl
  have endsAt
      {event : Event}
      {later : List Event}
      (isNext : loop.events = event :: later)
      (reached : event.isPassed cursor = false) :
      loop.ending evaluator cursor = loop.walk.arrive := by
    rw [ending, isNext, List.foldl_cons,
      Walk.follow_of_not_passed going reached,
      Walk.foldl_follow_of_arrived arrived]
  unfold turn at stops
  split at stops
  · rename_i isLevel
    rw [ending, events, isLevel]
    exact ⟨rfl, rfl⟩
  · cases stops
  · rename_i block outer isLevel
    split at stops
    · rename_i encloses
      have reached :
          (Event.close block.range block.closed).isPassed cursor = false := by
        rw [Script.Block.isPassed_close, encloses, Bool.not_true]
      rw [endsAt (events_of_levels isLevel) reached]
      exact ⟨rfl, rfl⟩
    · split at stops <;> cases stops
  · rename_i command rest around outer isLevel
    split at stops
    · split at stops <;> cases stops
    · rename_i notAbove
      have reached : (Event.visit command).isPassed cursor = false :=
        Bool.eq_false_iff.mpr notAbove
      have isNext :
          ∃ later, loop.events = .visit command :: later := by
        rw [events_of_levels isLevel]
        cases opens : command.block with
        | none =>
            exact ⟨_, by rw [WalkLevel.events_of_plain opens, List.cons_append]⟩
        | some block =>
            exact ⟨_, by rw [WalkLevel.events_of_block opens, List.cons_append]⟩
      obtain ⟨later, isNext⟩ := isNext
      rw [endsAt isNext reached]
      exact ⟨rfl, rfl⟩

/-- How much is still to come.  A block that is entered brings a level onto the stack, so
what is met counts twice. -/
def weight (loop : WalkLoop) : Nat :=
  2 * loop.events.length + loop.levels.length

/-- Every turn leaves less to come. -/
theorem weight_turn
    (goesOn : loop.GoesOn evaluator cursor next) :
    next.weight < loop.weight := by
  rcases turn_cases goesOn with
    ⟨outer, isLevel, rfl⟩ |
    ⟨block, outer, scopes, isLevel, -, -, rfl⟩ |
    ⟨command, rest, around, outer, isLevel, -,
      ⟨plain, rfl⟩ | ⟨block, opens, rfl⟩⟩
  · simp [weight, events, isLevel, WalkLevel.events, Script.traceAll]
  · simp only [weight, events, isLevel, WalkLevel.events, Script.traceAll,
      List.flatMap_cons, List.length_append, List.length_cons, List.length_nil,
      List.length_map, Option.toList_some]
    omega
  · simp only [weight, events, isLevel, WalkLevel.events_of_plain plain,
      List.flatMap_cons, List.length_append, List.length_cons]
    omega
  · simp only [weight, events, isLevel, WalkLevel.events_of_block opens,
      List.flatMap_cons, List.length_append, List.length_cons]
    omega

/-- The turns come to a stop, and there the walk ends. -/
theorem exists_stop
    (standOn : start.StandOn loop.opened loop.scopes) :
    ∃ final,
      Relation.ReflTransGen (GoesOn evaluator cursor) loop final ∧
        final.turn evaluator cursor = .stops ∧
        (loop.ending evaluator cursor).scopes = final.scopes ∧
        (loop.ending evaluator cursor).visits = final.visits := by
  -- A turn may open a block and make the stack higher, so the induction is on what is
  -- still to come.
  induction weight : loop.weight using Nat.strongRecOn generalizing loop with
  | ind bound inductionHypothesis =>
      cases taken : loop.turn evaluator cursor with
      | fails error =>
          exact absurd taken (turn_ne_fails standOn error)
      | stops =>
          obtain ⟨sameScopes, sameVisits⟩ := ending_of_stops taken
          exact ⟨loop, .refl, taken, sameScopes, sameVisits⟩
      | goesOn next =>
          have goesOn : loop.GoesOn evaluator cursor next := taken
          obtain ⟨final, reaches, stops, sameScopes, sameVisits⟩ :=
            inductionHypothesis next.weight (weight ▸ weight_turn goesOn)
              (standOn_turn standOn goesOn) rfl
          rw [← ending_turn goesOn] at sameScopes sameVisits
          exact ⟨final, .head goesOn reaches, stops, sameScopes, sameVisits⟩

end WalkLoop

namespace Evaluator

/--
The stack of scopes is safe on every tree.  Take any commands, whatever their positions
say, any cursor and any scopes, of any depth.  Taken in turns, the walk comes to a stop,
with the scopes and the visits of the walk through the tree.  At every turn on the way
there is one scope more than at the start for every block that was entered and not left,
and leaving the scope of a block never fails.  In the end the frames that were there at
the start are there as they were, below one frame for every block that is still open, but
for what was bound in the innermost of them.
-/
theorem scope_stack_safe
    (evaluator : Evaluator)
    (commands : List Script.Command)
    (cursor : Position)
    (scopes : Scopes) :
    let reaches :=
      Relation.ReflTransGen (WalkLoop.GoesOn evaluator cursor)
        (.start commands scopes)
    (∃ final : WalkLoop,
      reaches final ∧
        final.turn evaluator cursor = .stops ∧
        evaluator.walk commands cursor scopes =
          ⟨final.scopes, final.visits.reverse⟩ ∧
        ∃ own bound,
          own.length = final.opened ∧
            final.scopes.frames =
              own ++ scopes.innermost.bindAll bound :: scopes.outer) ∧
      ∀ loop,
        reaches loop →
        loop.scopes.depth = scopes.depth + loop.opened ∧
          ∀ error, loop.turn evaluator cursor ≠ .fails error := by
  intro reaches
  have starts :
      scopes.StandOn (WalkLoop.start commands scopes).opened
        (WalkLoop.start commands scopes).scopes :=
    .refl scopes
  have standOn
      {loop : WalkLoop}
      (reached : reaches loop) :
      scopes.StandOn loop.opened loop.scopes :=
    WalkLoop.standOn_of_reaches starts reached
  constructor
  · obtain ⟨final, reached, stops, sameScopes, sameVisits⟩ :=
      WalkLoop.exists_stop starts
    have sameEvents :
        (WalkLoop.start commands scopes).events = Script.traceAll commands := by
      simp [WalkLoop.events, WalkLoop.start, WalkLevel.events]
    have sameJourney := evaluator.walk_eq_trace commands cursor scopes
    rw [← sameEvents] at sameJourney
    refine ⟨final, reached, stops, ?_, standOn reached⟩
    rw [← sameScopes, ← sameVisits]
    exact sameJourney
  · intro loop reached
    exact ⟨(standOn reached).depth, WalkLoop.turn_ne_fails (standOn reached)⟩

/--
A block that ends before the command inside it starts, and a block without a range, both
with closing parentheses: the first one is left, the second one stays open, on top of the
scopes that were there at the start.
-/
theorem scope_stack_safe_inconsistent :
    let command (line : Nat) (block : Option (Script.Block Script.Command)) :
        Script.Command :=
      ⟨none, "open", [], some (.onLine line 9 0), none, block⟩
    let commands :=
      [command 0 (some ⟨[command 2 none], some (.onLine 0 5 1), true⟩),
        command 0 (some ⟨[command 1 none], none, true⟩)]
    let evaluator : Evaluator := ⟨.offline [] [], 0, []⟩
    let cursor : Position := ⟨3, 0⟩
    let scopes :=
      ((Scopes.root.bind (.ofVariable "$a" "1")).enter (some "m")).enter none
    let journey := evaluator.walk commands cursor scopes
    (journey.visits.length = 4 ∧ journey.scopes.depth = 3) ∧
      ∃ own bound,
        own.length = 1 ∧
          journey.scopes.frames =
            own ++ scopes.innermost.bindAll bound :: scopes.outer := by
  intro command commands evaluator cursor scopes journey
  have counted : journey.visits.length = 4 ∧ journey.scopes.depth = 3 := by
    decide +kernel
  obtain ⟨⟨final, reaches, -, isWalk, own, bound, isOpened, shape⟩, always⟩ :=
    scope_stack_safe evaluator commands cursor scopes
  have sameScopes : journey.scopes = final.scopes :=
    congrArg Journey.scopes isWalk
  have depth : journey.scopes.depth = 2 + final.opened := by
    rw [sameScopes]
    exact (always final reaches).1
  refine ⟨counted, own, bound, ?_, ?_⟩
  · omega
  · rw [sameScopes, shape]

end Evaluator

end ScriptCompletion
