import ScriptCompletion.Proofs.OutlinePlaces
import ScriptCompletion.Proofs.WalkTrace

namespace ScriptCompletion.Script

/-!
# Blocks that are open at a cursor

A block is open at a cursor when its opener starts above the line of the cursor
and the walk to the cursor does not come past its end.  The walk stops at the
first command that is not above the line of the cursor, so a block is also open
when it holds such a command, even if its closing parenthesis stands before the
cursor on the same line.

In a script that was read from a text the open blocks lie inside each other, and
a list of commands has at most one of them.
-/

namespace Block

/-- What is met in a block, with its end. -/
def trace (block : Block Command) : List Event :=
  traceAll block.commands ++ [.close block.range block.closed]

/-- Whether the walk to the cursor stops before the end of the block, when it
has come into the block. -/
def isOpenAt
    (block : Block Command)
    (cursor : Position) : Bool :=
  block.encloses cursor ||
    (flatten block.commands).any fun command => !isAbove command cursor

end Block

theorem Command.trace_eq_block_trace
    {command : Command}
    {block : Block Command}
    (opens : command.block = some block) :
    command.trace = .visit command :: block.trace :=
  Command.trace_of_block opens

/-- Whether the command is above the line of the cursor and opens a block that is
open at the cursor. -/
def Command.isOpenerAt
    (command : Command)
    (cursor : Position) : Bool :=
  isAbove command cursor &&
    command.block.any fun block => block.isOpenAt cursor

/-- The commands whose blocks are open at a cursor, in source order. -/
def openers
    (commands : List Command)
    (cursor : Position) : List Command :=
  (flatten commands).filter fun command => command.isOpenerAt cursor

/-- The commands directly inside the block of a command. -/
def Command.children (command : Command) : List Command :=
  match command.block with
  | none =>
      []
  | some block =>
      block.commands

theorem Command.children_of_block
    {command : Command}
    {block : Block Command}
    (opens : command.block = some block) :
    command.children = block.commands := by
  simp [children, opens]

/-- What has to be passed before an event is: everything before a command above
the line of the cursor, and the ends of blocks before the end of a block. -/
def Event.Requires
    (cursor : Position)
    (first second : Event) : Prop :=
  match first, second with
  | first, .visit command =>
      isAbove command cursor = true →
      first.isPassed cursor = true
  | .close range closed, .close laterRange laterClosed =>
      (Event.close laterRange laterClosed).isPassed cursor = true →
      (Event.close range closed).isPassed cursor = true
  | .visit _, .close _ _ =>
      True

/-- An end of a block that is passed has a closing parenthesis at or before the
cursor. -/
theorem Event.isPassed_close_iff
    {range : Option Span}
    {closed : Bool}
    {cursor : Position} :
    (Event.close range closed).isPassed cursor = true ↔
      ∃ stop, (Event.close range closed).stop? = some stop ∧ ¬ cursor < stop := by
  cases closed with
  | false =>
      simp [isPassed, Block.encloses, stop?]
  | true =>
      cases range <;>
        simp [isPassed, Block.encloses, stop?]

theorem Event.requires_of_order
    {cursor : Position}
    {first second : Event}
    (precedes : first.Precedes second)
    (endsBefore : first.EndsBefore second) :
    Event.Requires cursor first second := by
  cases second with
  | visit command =>
      intro above
      exact Event.isPassed_of_precedes precedes above
  | close laterRange laterClosed =>
      cases first with
      | visit command =>
          trivial
      | close range closed =>
          intro passed
          obtain ⟨stop, isStop, notInside⟩ := Event.isPassed_close_iff.mp passed
          obtain ⟨earlier, isEarlier, before⟩ := endsBefore stop isStop
          refine Event.isPassed_close_iff.mpr ⟨earlier, isEarlier, ?_⟩
          rw [Position.lt_iff] at before notInside ⊢
          omega

/-- A script is met from top to bottom. -/
theorem traceAll_parse_sorted (text : String) :
    (traceAll (parse text).commands).Pairwise Event.Precedes := by
  have sorted := parse_sorted text
  rw [outline, List.pairwise_map] at sorted
  refine sorted.imp ?_
  intro first second precedes
  simpa [Event.Precedes] using precedes

/-- A script that was read from a text is passed in order. -/
theorem parse_requires
    (text : String)
    (cursor : Position) :
    (traceAll (parse text).commands).Pairwise (Event.Requires cursor) := by
  have endsBefore := parse_endsBefore text
  rw [outline, List.pairwise_map] at endsBefore
  refine ((traceAll_parse_sorted text).and endsBefore).imp ?_
  rintro first second ⟨precedes, before⟩
  apply Event.requires_of_order precedes
  simpa [Event.EndsBefore] using before

/-- Whether something in a list of events is not passed. -/
def stopsIn
    (cursor : Position)
    (events : List Event) : Bool :=
  events.any fun event => !event.isPassed cursor

theorem stopsIn_cons
    (cursor : Position)
    (event : Event)
    (rest : List Event) :
    stopsIn cursor (event :: rest) =
      (!event.isPassed cursor || stopsIn cursor rest) := by
  simp [stopsIn]

theorem stopsIn_append
    (cursor : Position)
    (first second : List Event) :
    stopsIn cursor (first ++ second) =
      (stopsIn cursor first || stopsIn cursor second) := by
  simp [stopsIn]

theorem stopsIn_eq_true
    {cursor : Position}
    {events : List Event} :
    stopsIn cursor events = true ↔
      ∃ event ∈ events, event.isPassed cursor = false := by
  simp [stopsIn]

theorem stopsIn_eq_false
    {cursor : Position}
    {events : List Event} :
    stopsIn cursor events = false ↔
      ∀ event ∈ events, event.isPassed cursor = true := by
  simp [stopsIn]

namespace Block

variable {block : Block Command} {cursor : Position}

theorem isPassed_close :
    (Event.close block.range block.closed).isPassed cursor =
      !block.encloses cursor :=
  rfl

/-- The walk stops in a block that is open. -/
theorem stopsIn_of_isOpenAt
    (isOpen : block.isOpenAt cursor = true) :
    stopsIn cursor block.trace = true := by
  rw [stopsIn_eq_true]
  rw [isOpenAt, Bool.or_eq_true, List.any_eq_true] at isOpen
  rcases isOpen with encloses | ⟨command, member, notAbove⟩
  · refine ⟨.close block.range block.closed, by simp [trace], ?_⟩
    rw [isPassed_close, encloses, Bool.not_true]
  · refine ⟨.visit command, ?_, by simpa [Event.isPassed] using notAbove⟩
    exact List.mem_append_left _ (mem_flatten.mp member)

/-- A block is open if and only if the walk stops in it. -/
theorem isOpenAt_eq_stopsIn
    (ordered : block.trace.Pairwise (Event.Requires cursor)) :
    block.isOpenAt cursor = stopsIn cursor block.trace := by
  rw [Bool.eq_iff_iff]
  refine ⟨stopsIn_of_isOpenAt, ?_⟩
  rw [stopsIn_eq_true, isOpenAt, Bool.or_eq_true]
  rintro ⟨event, member, reached⟩
  rcases List.mem_append.mp member with isInside | isEnd
  · cases event with
    | visit command =>
        refine .inr (List.any_eq_true.mpr ⟨command, mem_flatten.mpr isInside, ?_⟩)
        simpa [Event.isPassed] using reached
    | close range closed =>
        -- An inner block that the cursor is inside of lies in this one.
        left
        rw [trace, List.pairwise_append] at ordered
        have required :=
          ordered.2.2 _ isInside (.close block.range block.closed) (by simp)
        have notPassed :
            (Event.close block.range block.closed).isPassed cursor = false := by
          apply Bool.eq_false_iff.mpr
          intro passed
          rw [required passed] at reached
          cases reached
        simpa [isPassed_close] using notPassed
  · rw [List.mem_singleton] at isEnd
    subst event
    left
    simpa [isPassed_close] using reached

end Block

/-- Behind the place where the walk stops no command is above the cursor. -/
theorem isAbove_of_stopsIn
    {cursor : Position}
    {first second : List Event}
    (ordered : (first ++ second).Pairwise (Event.Requires cursor))
    (stops : stopsIn cursor first = true)
    {command : Command}
    (member : .visit command ∈ second) :
    isAbove command cursor = false := by
  obtain ⟨event, isEarlier, reached⟩ := stopsIn_eq_true.mp stops
  rw [List.pairwise_append] at ordered
  have required := ordered.2.2 event isEarlier (.visit command) member
  apply Bool.eq_false_iff.mpr
  intro above
  unfold Event.Requires at required
  simp [required above] at reached

namespace Command

variable {command : Command} {block : Block Command} {cursor : Position}

theorem isOpenerAt_of_block
    (opens : command.block = some block)
    (above : isAbove command cursor = true) :
    command.isOpenerAt cursor = block.isOpenAt cursor := by
  simp [isOpenerAt, opens, above]

theorem isOpenerAt_of_plain
    (plain : command.block = none) :
    command.isOpenerAt cursor = false := by
  simp [isOpenerAt, plain]

theorem isOpenerAt_of_not_above
    (notAbove : isAbove command cursor = false) :
    command.isOpenerAt cursor = false := by
  simp [isOpenerAt, notAbove]

end Command

section Openers

variable {cursor : Position}

theorem openers_cons
    (command : Command)
    (rest : List Command)
    (cursor : Position) :
    openers (command :: rest) cursor =
      openers [command] cursor ++ openers rest cursor := by
  rw [openers, flatten_cons, List.filter_append]
  rfl

theorem openers_of_block
    {command : Command}
    {block : Block Command}
    (opens : command.block = some block)
    (isOpener : command.isOpenerAt cursor = true) :
    openers [command] cursor = command :: openers block.commands cursor := by
  simp only [openers, flatten_of_block opens, List.filter_cons, isOpener,
    ↓reduceIte]

/-- Where no command is above the cursor no block is open. -/
theorem openers_of_none_above
    {commands : List Command}
    (noneAbove : ∀ command ∈ flatten commands, isAbove command cursor = false) :
    openers commands cursor = [] := by
  rw [openers, List.filter_eq_nil_iff]
  intro command member
  rw [Command.isOpenerAt_of_not_above (noneAbove command member)]
  exact Bool.false_ne_true

/-- Where the walk does not stop no block is open. -/
theorem openers_of_not_stopsIn
    {commands : List Command}
    (passes : stopsIn cursor (traceAll commands) = false) :
    openers commands cursor = [] := by
  rw [openers, List.filter_eq_nil_iff]
  intro command member isOpener
  rw [Command.isOpenerAt, Bool.and_eq_true, Option.any_eq_true] at isOpener
  obtain ⟨-, block, opens, isOpen⟩ := isOpener
  obtain ⟨event, isInside, reached⟩ :=
    stopsIn_eq_true.mp (Block.stopsIn_of_isOpenAt isOpen)
  have inTrace : event ∈ traceAll commands := by
    apply (traceAll_sublist commands (mem_flatten.mp member)).subset
    rw [Command.trace_eq_block_trace opens]
    exact List.mem_cons_of_mem _ isInside
  rw [stopsIn_eq_false.mp passes event inTrace] at reached
  cases reached

end Openers

/-- Commands each of which is directly inside the block of the one before, the
first one being among the given commands. -/
inductive IsDescent : List Command → List Command → Prop where
  | nil {commands : List Command} :
      IsDescent commands []
  | cons {command : Command} {commands rest : List Command} :
      command ∈ commands →
      IsDescent command.children rest →
      IsDescent commands (command :: rest)

theorem IsDescent.mono
    {commands more descent : List Command}
    (descends : IsDescent commands descent)
    (included : commands ⊆ more) :
    IsDescent more descent := by
  cases descends with
  | nil =>
      exact .nil
  | cons member further =>
      exact .cons (included member) further

section Descent

variable {cursor : Position}

/-- The walk stops in a command that opens no open block only where the command
is not above the cursor. -/
theorem Command.not_above_of_stopsIn
    {command : Command}
    (ordered : command.trace.Pairwise (Event.Requires cursor))
    (stops : stopsIn cursor command.trace = true)
    (notOpener : command.isOpenerAt cursor = false) :
    isAbove command cursor = false := by
  apply Bool.eq_false_iff.mpr
  intro above
  cases opens : command.block with
  | none =>
      simp [Command.trace_of_plain opens, stopsIn, Event.isPassed, above]
        at stops
  | some block =>
      rw [Command.trace_eq_block_trace opens] at stops ordered
      have stopsInside : stopsIn cursor block.trace = true := by
        simpa [stopsIn, Event.isPassed, above] using stops
      rw [Command.isOpenerAt_of_block opens above,
        Block.isOpenAt_eq_stopsIn ordered.of_cons, stopsInside] at notOpener
      cases notOpener

/-- No command in a command that is not above the cursor is above it. -/
theorem Command.none_above
    {command : Command}
    (ordered : command.trace.Pairwise (Event.Requires cursor))
    (notAbove : isAbove command cursor = false) :
    ∀ inner ∈ flatten [command], isAbove inner cursor = false := by
  intro inner member
  cases opens : command.block with
  | none =>
      rw [flatten_of_plain opens, List.mem_singleton] at member
      exact member ▸ notAbove
  | some block =>
      rw [flatten_of_block opens, List.mem_cons] at member
      rcases member with isCommand | isInside
      · exact isCommand ▸ notAbove
      · have split :
            ([Event.visit command] ++ block.trace).Pairwise
              (Event.Requires cursor) := by
          simpa [Command.trace_eq_block_trace opens] using ordered
        have stops : stopsIn cursor [.visit command] = true := by
          simp [stopsIn, Event.isPassed, notAbove]
        exact isAbove_of_stopsIn split stops
          (List.mem_append_left _ (mem_flatten.mp isInside))

/-- Behind a command in which the walk stops no command is above the cursor. -/
theorem none_above_of_stopsIn
    {command : Command}
    {rest : List Command}
    (ordered : (traceAll (command :: rest)).Pairwise (Event.Requires cursor))
    (stops : stopsIn cursor command.trace = true) :
    ∀ later ∈ flatten rest, isAbove later cursor = false := by
  intro later member
  rw [traceAll] at ordered
  exact isAbove_of_stopsIn ordered stops (mem_flatten.mp member)

/-- A command that opens no open block holds none. -/
theorem Command.openers_of_not_opener
    {command : Command}
    (ordered : command.trace.Pairwise (Event.Requires cursor))
    (notOpener : command.isOpenerAt cursor = false) :
    openers [command] cursor = [] := by
  cases stops : stopsIn cursor command.trace with
  | true =>
      have notAbove := Command.not_above_of_stopsIn ordered stops notOpener
      exact openers_of_none_above (Command.none_above ordered notAbove)
  | false =>
      apply openers_of_not_stopsIn
      simpa [traceAll] using stops

mutual

/-- The open blocks of a command lie inside each other. -/
theorem Command.openers_descend
    (command : Command)
    (ordered : command.trace.Pairwise (Event.Requires cursor)) :
    IsDescent [command] (openers [command] cursor) := by
  cases isOpener : command.isOpenerAt cursor with
  | false =>
      rw [Command.openers_of_not_opener ordered isOpener]
      exact .nil
  | true =>
      match command with
      | ⟨_, _, _, _, _, none⟩ =>
          rw [Command.isOpenerAt_of_plain rfl] at isOpener
          cases isOpener
      | ⟨qualifier, name, arguments, range, nameRange,
          some ⟨commands, blockRange, closed⟩⟩ =>
          rw [openers_of_block rfl isOpener]
          refine .cons (by simp) ?_
          rw [Command.trace, List.pairwise_cons, List.pairwise_append] at ordered
          exact openers_descend commands ordered.2.1

/-- The open blocks lie inside each other, one directly in the other. -/
theorem openers_descend
    (commands : List Command)
    (ordered : (traceAll commands).Pairwise (Event.Requires cursor)) :
    IsDescent commands (openers commands cursor) := by
  match commands with
  | [] =>
      exact .nil
  | command :: rest =>
      have orderedParts := ordered
      rw [traceAll, List.pairwise_append] at orderedParts
      rw [openers_cons]
      cases stops : stopsIn cursor command.trace with
      | true =>
          rw [openers_of_none_above (none_above_of_stopsIn ordered stops),
            List.append_nil]
          exact (Command.openers_descend command orderedParts.1).mono (by simp)
      | false =>
          have passes : stopsIn cursor (traceAll [command]) = false := by
            simpa [traceAll] using stops
          rw [openers_of_not_stopsIn passes, List.nil_append]
          exact (openers_descend rest orderedParts.2.1).mono (by simp)

end

end Descent

section Parsed

variable {text : String} {opener : Command} {block : Block Command}

/-- Nothing in a closed block is behind the line of its closing parenthesis. -/
theorem line?_of_mem_block_trace
    (member : opener ∈ flatten (parse text).commands)
    (opens : opener.block = some block)
    {line : Nat}
    (closes : (Event.close block.range block.closed).line? = some line)
    {event : Event}
    (inside : event ∈ block.trace) :
    ∃ own, event.line? = some own ∧ own ≤ line := by
  have sorted :=
    (traceAll_parse_sorted text).sublist
      (traceAll_sublist _ (mem_flatten.mp member))
  rw [Command.trace_eq_block_trace opens, Block.trace, List.pairwise_cons,
    List.pairwise_append] at sorted
  rcases List.mem_append.mp inside with isEarlier | isEnd
  · exact sorted.2.2.2 event isEarlier _ (by simp) line closes
  · rw [List.mem_singleton] at isEnd
    exact ⟨line, isEnd ▸ closes, Nat.le_refl line⟩

/-- A block is open that begins above the line of the cursor and that is never
closed or is closed behind that line. -/
theorem mem_openers_of_isBehind
    {cursor : Position}
    (member : opener ∈ flatten (parse text).commands)
    (opens : opener.block = some block)
    (above : isAbove opener cursor = true)
    (behind : (Event.close block.range block.closed).IsBehind cursor.line) :
    opener ∈ openers (parse text).commands cursor := by
  have notPassed := Event.isPassed_of_isBehind behind
  have encloses : block.encloses cursor = true := by
    simpa [Block.isPassed_close] using notPassed
  refine List.mem_filter.mpr ⟨member, ?_⟩
  rw [Command.isOpenerAt_of_block opens above, Block.isOpenAt, encloses,
    Bool.true_or]

/-- A block is not open that is closed above the line of the cursor. -/
theorem not_mem_openers_of_line?
    {cursor : Position}
    (member : opener ∈ flatten (parse text).commands)
    (opens : opener.block = some block)
    {line : Nat}
    (closes : (Event.close block.range block.closed).line? = some line)
    (isEarlier : line < cursor.line) :
    opener ∉ openers (parse text).commands cursor := by
  intro isOpener
  have opened := (List.mem_filter.mp isOpener).2
  rw [Command.isOpenerAt, Bool.and_eq_true, opens, Option.any_some] at opened
  obtain ⟨event, inside, reached⟩ :=
    stopsIn_eq_true.mp (Block.stopsIn_of_isOpenAt opened.2)
  obtain ⟨own, isOwn, inTime⟩ := line?_of_mem_block_trace member opens closes inside
  have passed := Event.isPassed_of_line? isOwn (Nat.lt_of_le_of_lt inTime isEarlier)
  rw [passed] at reached
  cases reached

end Parsed

end ScriptCompletion.Script
