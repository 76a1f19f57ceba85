import ScriptCompletion.Engine.Pass
import ScriptCompletion.Proofs.LexicalScopes

namespace ScriptCompletion

/-!
# How many scopes are open at the cursor

One scope is open for every block around the cursor, and besides for every block
that lingers: a block whose closing parenthesis stands on the line of the cursor
and not behind it, but which holds a command that starts on that line.  The walk
stops at such a command and never comes to the closing parenthesis.
-/

namespace Script

namespace Block

/-- Whether the block ends at or before the cursor and holds a command that
starts on the line of the cursor. -/
def lingersAt
    (block : Block Command)
    (cursor : Position) : Bool :=
  !block.encloses cursor &&
    (flatten block.commands).any fun command =>
      command.startLine == some cursor.line

/-- A block that does not enclose the cursor has a closing parenthesis at or
before it. -/
theorem exists_range_of_not_encloses
    {block : Block Command}
    {cursor : Position}
    (outside : block.encloses cursor = false) :
    ∃ range,
      block.closed = true ∧ block.range = some range ∧ ¬ cursor < range.stop := by
  unfold encloses at outside
  rw [Bool.or_eq_false_iff, Bool.not_eq_false'] at outside
  cases isRange : block.range with
  | none =>
      simp [isRange] at outside
  | some range =>
      exact ⟨range, outside.1, rfl, by simpa [isRange] using outside.2⟩

end Block

/-- The number of blocks around the cursor: those that begin above its line and
that are never closed or end behind the cursor. -/
def around
    (commands : List Command)
    (cursor : Position) : Nat :=
  (flatten commands).countP fun command =>
    isAbove command cursor &&
      command.block.any fun block => block.encloses cursor

/-- The number of blocks that begin above the line of the cursor and linger. -/
def lingering
    (commands : List Command)
    (cursor : Position) : Nat :=
  (flatten commands).countP fun command =>
    isAbove command cursor &&
      command.block.any fun block => block.lingersAt cursor

section Parsed

variable {text : String} {cursor : Position} {opener : Command}
  {block : Block Command}

/-- In a closed block everything starts on the line of the closing parenthesis or
above it. -/
theorem exists_startLine_of_closed
    (member : opener ∈ flatten (parse text).commands)
    (opens : opener.block = some block)
    {range : Span}
    (closed : block.closed = true)
    (isRange : block.range = some range)
    {command : Command}
    (inside : command ∈ flatten block.commands) :
    ∃ line, command.startLine = some line ∧ line ≤ range.stop.line := by
  have closes :
      (Event.close block.range block.closed).line? = some range.stop.line := by
    rw [closed, isRange]
    rfl
  exact line?_of_mem_block_trace member opens closes
    (List.mem_append_left _ (mem_flatten.mp inside))

/-- In a block that ends at or before the cursor the walk stops exactly at the
commands that start on the line of the cursor. -/
theorem not_above_iff_of_not_encloses
    (member : opener ∈ flatten (parse text).commands)
    (opens : opener.block = some block)
    (outside : block.encloses cursor = false)
    {command : Command}
    (inside : command ∈ flatten block.commands) :
    isAbove command cursor = false ↔ command.startLine = some cursor.line := by
  obtain ⟨range, closed, isRange, notBehind⟩ :=
    Block.exists_range_of_not_encloses outside
  obtain ⟨line, starts, inTime⟩ :=
    exists_startLine_of_closed member opens closed isRange inside
  rw [Position.lt_iff] at notBehind
  simp only [isAbove, starts, decide_eq_false_iff_not, Option.some.injEq]
  omega

/-- A block that ends at or before the cursor is open exactly if it lingers. -/
theorem isOpenAt_of_not_encloses
    (member : opener ∈ flatten (parse text).commands)
    (opens : opener.block = some block)
    (outside : block.encloses cursor = false) :
    block.isOpenAt cursor = block.lingersAt cursor := by
  rw [Block.isOpenAt, Block.lingersAt, outside, Bool.false_or, Bool.not_false,
    Bool.true_and, Bool.eq_iff_iff, List.any_eq_true, List.any_eq_true]
  constructor
  · rintro ⟨command, inside, notAbove⟩
    refine ⟨command, inside, ?_⟩
    rw [Bool.not_eq_true'] at notAbove
    simpa using
      (not_above_iff_of_not_encloses member opens outside inside).mp notAbove
  · rintro ⟨command, inside, starts⟩
    refine ⟨command, inside, ?_⟩
    rw [beq_iff_eq] at starts
    rw [(not_above_iff_of_not_encloses member opens outside inside).mpr starts,
      Bool.not_false]

/-- A block that lingers is closed on the line of the cursor. -/
theorem closed_on_line_of_lingersAt
    (member : opener ∈ flatten (parse text).commands)
    (opens : opener.block = some block)
    (lingers : block.lingersAt cursor = true) :
    ∃ range,
      block.closed = true ∧ block.range = some range ∧
        range.stop.line = cursor.line ∧ range.stop.column ≤ cursor.column := by
  rw [Block.lingersAt, Bool.and_eq_true, Bool.not_eq_true',
    List.any_eq_true] at lingers
  obtain ⟨outside, command, inside, starts⟩ := lingers
  obtain ⟨range, closed, isRange, notBehind⟩ :=
    Block.exists_range_of_not_encloses outside
  obtain ⟨line, isLine, inTime⟩ :=
    exists_startLine_of_closed member opens closed isRange inside
  have onLine : line = cursor.line := by
    rw [isLine] at starts
    simpa using starts
  rw [Position.lt_iff] at notBehind
  exact ⟨range, closed, isRange, by omega, by omega⟩

/-- The open blocks are those around the cursor and those that linger. -/
theorem length_openers_parse
    (text : String)
    (cursor : Position) :
    (openers (parse text).commands cursor).length =
      around (parse text).commands cursor +
        lingering (parse text).commands cursor := by
  rw [openers, ← List.countP_eq_length_filter,
    List.countP_eq_countP_filter_add _ _ fun command =>
      command.block.any fun block => block.encloses cursor,
    List.countP_filter, List.countP_filter]
  congr 1
  · apply List.countP_congr
    intro opener member
    cases opens : opener.block with
    | none =>
        simp [Command.isOpenerAt, opens]
    | some block =>
        cases encloses : block.encloses cursor <;>
          simp [Command.isOpenerAt, opens, encloses, Block.isOpenAt]
  · apply List.countP_congr
    intro opener member
    cases opens : opener.block with
    | none =>
        simp [Command.isOpenerAt, opens]
    | some block =>
        cases encloses : block.encloses cursor with
        | true =>
            simp [encloses, Block.lingersAt]
        | false =>
            simp [Command.isOpenerAt, opens, encloses,
              isOpenAt_of_not_encloses member opens encloses]

end Parsed

end Script

namespace Evaluator

/-- One scope is open for every block around the cursor and for every block that
lingers, and a block lingers only if it is closed on the line of the cursor, not
behind the cursor. -/
theorem depth_walk_eq_around_add_lingering
    (evaluator : Evaluator)
    (text : String)
    (cursor : Position)
    (root : Frame) :
    let commands := (Script.parse text).commands
    (evaluator.walk commands cursor ⟨root, []⟩).scopes.depth =
        Script.around commands cursor + Script.lingering commands cursor ∧
      ∀ opener ∈ Script.flatten commands, ∀ block, opener.block = some block →
        block.lingersAt cursor = true →
        ∃ range,
          block.closed = true ∧ block.range = some range ∧
            range.stop.line = cursor.line ∧
            range.stop.column ≤ cursor.column := by
  intro commands
  constructor
  · have counted := congrArg List.length (frames_walk evaluator text cursor root)
    rw [List.length_reverse, List.length_cons, List.length_map,
      Script.length_openers_parse] at counted
    exact Nat.succ.inj counted
  · intro opener member block opens lingers
    exact Script.closed_on_line_of_lingersAt member opens lingers

/-- Behind the closing parenthesis of a block the scope of the block is still
open, with its variables and its module, where a command of the block stands on
the same line. -/
theorem scope_open_behind_closing_parenthesis :
    let text :=
      "connect 0x2222222222222222222222222222222222222222 (\n  exec )\n"
    let cursor : Position := ⟨1, 8⟩
    let commands := (Script.parse text).commands
    let root : Frame :=
      { bindings :=
          [.ofModule Script.standardName (standardModule []),
            .ofModule Aragon.name aragonModule]
        context := none }
    let scopes :=
      (Engine.standalone.evaluator.walk commands cursor ⟨root, []⟩).scopes
    (Script.flatten commands).map (fun command =>
          command.block.map fun block =>
            (block.closed, block.range.map Span.stop)) =
        [some (true, some ⟨1, 8⟩), none] ∧
      Script.around commands cursor = 0 ∧
      scopes.depth = 1 ∧
      scopes.context? = some Aragon.name ∧
      scopes.visibleNames .variable = ["$dao"] := by
  decide +kernel

end Evaluator

end ScriptCompletion
