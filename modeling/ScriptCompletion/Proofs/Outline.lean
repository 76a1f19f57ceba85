import ScriptCompletion.Loading

namespace ScriptCompletion.Script

/-!
# Outlines of scripts

Reading a script from top to bottom one meets commands and the ends of blocks.
The trace of a tree lists them, so whatever goes through a tree in source order
is a fold over its trace.

A command that is met first is not yet known as a whole, since its block comes
after it.  Its heading is what stands before the block: the outline of a tree is
its trace with headings in the place of commands, and it grows at its end while
a script is read.
-/

/-- What is met in a script. -/
inductive Event where
  | visit (command : Command)
  /-- The end of a block, with the range of the block and whether its closing
  parenthesis was found. -/
  | close (range : Option Span) (closed : Bool)
deriving DecidableEq

mutual

/-- What is met in a command. -/
def Command.trace (command : Command) : List Event :=
  match command with
  | ⟨qualifier, name, arguments, range, nameRange, none⟩ =>
      [.visit ⟨qualifier, name, arguments, range, nameRange, none⟩]
  | ⟨qualifier, name, arguments, range, nameRange,
      some ⟨commands, blockRange, closed⟩⟩ =>
      .visit
        ⟨qualifier, name, arguments, range, nameRange,
          some ⟨commands, blockRange, closed⟩⟩ ::
        (traceAll commands ++ [.close blockRange closed])

/-- What is met in a list of commands. -/
def traceAll (commands : List Command) : List Event :=
  match commands with
  | [] =>
      []
  | command :: rest =>
      command.trace ++ traceAll rest

end

theorem Command.trace_of_plain
    {command : Command}
    (plain : command.block = none) :
    command.trace = [.visit command] := by
  cases command
  subst plain
  simp [trace]

theorem Command.trace_of_block
    {command : Command}
    {block : Block Command}
    (opens : command.block = some block) :
    command.trace =
      .visit command ::
        (traceAll block.commands ++ [.close block.range block.closed]) := by
  cases command
  cases block
  subst opens
  simp [trace]

theorem traceAll_append
    (first second : List Command) :
    traceAll (first ++ second) = traceAll first ++ traceAll second := by
  induction first with
  | nil =>
      simp [traceAll]
  | cons command rest inductionHypothesis =>
      simp [traceAll, inductionHypothesis]

namespace Event

/-- The command that is met. -/
def command? : Event → Option Command
  | .visit command =>
      some command
  | .close _ _ =>
      none

end Event

mutual

/-- A command is gathered in the order of its trace. -/
theorem Command.gather_eq_trace
    (gathered : List Command)
    (command : Command) :
    command.gather gathered =
      (command.trace.filterMap Event.command?).reverse ++ gathered := by
  match command with
  | ⟨qualifier, name, arguments, range, nameRange, none⟩ =>
      simp [Command.gather, Command.trace, Event.command?]
  | ⟨qualifier, name, arguments, range, nameRange,
      some ⟨commands, blockRange, closed⟩⟩ =>
      simp [Command.gather, Command.trace, Event.command?,
        gatherAll_eq_trace _ commands]

/-- Commands are gathered in the order of their trace. -/
theorem gatherAll_eq_trace
    (gathered : List Command)
    (commands : List Command) :
    Command.gatherAll gathered commands =
      ((traceAll commands).filterMap Event.command?).reverse ++ gathered := by
  match commands with
  | [] =>
      simp [Command.gatherAll, traceAll]
  | command :: rest =>
      simp [Command.gatherAll, traceAll,
        Command.gather_eq_trace gathered command,
        gatherAll_eq_trace _ rest]

end

/-- The commands of a script are those of its trace. -/
theorem flatten_eq_trace (commands : List Command) :
    flatten commands = (traceAll commands).filterMap Event.command? := by
  simp [flatten, gatherAll_eq_trace]

/-- A command of a script is met in it. -/
theorem mem_flatten
    {command : Command}
    {commands : List Command} :
    command ∈ flatten commands ↔ .visit command ∈ traceAll commands := by
  rw [flatten_eq_trace, List.mem_filterMap]
  constructor
  · rintro ⟨event, member, isCommand⟩
    cases event with
    | visit own =>
        cases isCommand
        exact member
    | close range closed =>
        cases isCommand
  · intro member
    exact ⟨_, member, rfl⟩

theorem traceAll_cons
    (command : Command)
    (rest : List Command) :
    traceAll (command :: rest) = traceAll [command] ++ traceAll rest := by
  simp [traceAll]

theorem flatten_cons
    (command : Command)
    (rest : List Command) :
    flatten (command :: rest) = flatten [command] ++ flatten rest := by
  simp [flatten_eq_trace, traceAll]

theorem flatten_of_plain
    {command : Command}
    (plain : command.block = none) :
    flatten [command] = [command] := by
  simp [flatten_eq_trace, traceAll, Command.trace_of_plain plain,
    Event.command?]

theorem flatten_of_block
    {command : Command}
    {block : Block Command}
    (opens : command.block = some block) :
    flatten [command] = command :: flatten block.commands := by
  simp [flatten_eq_trace, traceAll, Command.trace_of_block opens,
    Event.command?]

theorem flatten_singleton
    (command : Command) :
    ∃ inside, flatten [command] = command :: inside := by
  cases opens : command.block with
  | none =>
      exact ⟨[], flatten_of_plain opens⟩
  | some block =>
      exact ⟨flatten block.commands, flatten_of_block opens⟩

theorem mem_flatten_of_mem
    {command : Command}
    {commands : List Command}
    (member : command ∈ commands) :
    command ∈ flatten commands := by
  induction commands with
  | nil =>
      cases member
  | cons first rest inductionHypothesis =>
      rw [flatten_cons, List.mem_append]
      rcases List.mem_cons.mp member with isFirst | isLater
      · obtain ⟨inside, shape⟩ := flatten_singleton first
        exact .inl (by simp [shape, isFirst])
      · exact .inr (inductionHypothesis isLater)

mutual

/-- The trace of a command holds those of the commands in it. -/
theorem Command.trace_sublist
    {inner : Command}
    (command : Command)
    (member : .visit inner ∈ command.trace) :
    inner.trace.Sublist command.trace := by
  match command with
  | ⟨qualifier, name, arguments, range, nameRange, none⟩ =>
      simp only [Command.trace, List.mem_singleton, Event.visit.injEq] at member
      exact member ▸ .refl _
  | ⟨qualifier, name, arguments, range, nameRange,
      some ⟨commands, blockRange, closed⟩⟩ =>
      have unfolded := member
      simp only [Command.trace, List.mem_cons, List.mem_append,
        List.not_mem_nil, or_false, Event.visit.injEq, reduceCtorEq] at unfolded
      rcases unfolded with isCommand | isInside
      · exact isCommand ▸ .refl _
      · rw [Command.trace]
        exact ((traceAll_sublist commands isInside).trans
          (List.sublist_append_left _ _)).cons _

/-- The trace of commands holds those of all commands in them. -/
theorem traceAll_sublist
    {inner : Command}
    (commands : List Command)
    (member : .visit inner ∈ traceAll commands) :
    inner.trace.Sublist (traceAll commands) := by
  match commands with
  | [] =>
      simp [traceAll] at member
  | command :: rest =>
      rw [traceAll] at member ⊢
      rcases List.mem_append.mp member with inFirst | inRest
      · exact (Command.trace_sublist command inFirst).trans
          (List.sublist_append_left _ _)
      · exact (traceAll_sublist rest inRest).trans
          (List.sublist_append_right _ _)

end

namespace Command

/-- The part of a command that stands before its block.  The range is cut to
where it starts; of a block it is only kept that there is one. -/
def heading (command : Command) : Command :=
  { command with
    range := command.range.map fun range => ⟨range.start, range.start⟩
    block := command.block.map fun _ => ⟨[], none, false⟩ }

@[simp]
theorem startLine_heading (command : Command) :
    command.heading.startLine = command.startLine := by
  cases found : command.range <;>
    simp [startLine, heading, found]

@[simp]
theorem isSome_block_heading (command : Command) :
    command.heading.block.isSome = command.block.isSome := by
  simp [heading]

@[simp]
theorem qualifiedName_heading (command : Command) :
    command.heading.qualifiedName = command.qualifiedName :=
  rfl

@[simp]
theorem isStandard_heading
    (command : Command)
    (name : String) :
    command.heading.isStandard name = command.isStandard name :=
  rfl

end Command

namespace Event

/-- The event with the heading of the command in its place. -/
def heading : Event → Event
  | .visit command =>
      .visit command.heading
  | .close range closed =>
      .close range closed

/-- The line on which a command starts or a block is closed.  A block that is
never closed ends behind all lines. -/
def line? : Event → Option Nat
  | .visit command =>
      command.startLine
  | .close range true =>
      range.map fun range => range.stop.line
  | .close _ false =>
      none

@[simp]
theorem line?_heading (event : Event) :
    event.heading.line? = event.line? := by
  cases event with
  | visit command =>
      exact command.startLine_heading
  | close range closed =>
      rfl

@[simp]
theorem command?_heading (event : Event) :
    event.heading.command? = event.command?.map Command.heading := by
  cases event <;> rfl

/-- The first event is on no later line than the second. -/
def Precedes
    (first second : Event) : Prop :=
  ∀ line,
    second.line? = some line →
    ∃ earlier, first.line? = some earlier ∧ earlier ≤ line

/-- The event is behind the line. -/
def IsBehind
    (event : Event)
    (line : Nat) : Prop :=
  ∀ own,
    event.line? = some own →
    line < own

end Event

/-- The trace of commands with the headings in the place of the commands. -/
def outline (commands : List Command) : List Event :=
  (traceAll commands).map Event.heading

@[simp]
theorem outline_nil :
    outline [] = [] := by
  simp [outline, traceAll]

theorem outline_append
    (first second : List Command) :
    outline (first ++ second) = outline first ++ outline second := by
  simp [outline, traceAll_append]

theorem outline_plain
    {command : Command}
    (plain : command.block = none) :
    outline [command] = [.visit command.heading] := by
  simp [outline, traceAll, Command.trace_of_plain plain, Event.heading]

theorem outline_block
    {command : Command}
    {block : Block Command}
    (opens : command.block = some block) :
    outline [command] =
      .visit command.heading ::
        (outline block.commands ++ [.close block.range block.closed]) := by
  simp [outline, traceAll, Command.trace_of_block opens, Event.heading]

/-- The headings of the commands in source order. -/
def headings (outline : List Event) : List Command :=
  outline.filterMap Event.command?

@[simp]
theorem headings_visit
    (command : Command)
    (rest : List Event) :
    headings (.visit command :: rest) = command :: headings rest :=
  rfl

@[simp]
theorem headings_close
    (range : Option Span)
    (closed : Bool)
    (rest : List Event) :
    headings (.close range closed :: rest) = headings rest :=
  rfl

/-- The outline has the headings of all commands. -/
theorem headings_outline (commands : List Command) :
    headings (outline commands) =
      (flatten commands).map Command.heading := by
  have commandOfHeading :
      Event.command? ∘ Event.heading =
        fun event => event.command?.map Command.heading :=
    funext Event.command?_heading
  rw [flatten_eq_trace, List.map_filterMap, headings, outline,
    List.filterMap_map, commandOfHeading]

/-- The last command of a line is found in the outline. -/
theorem commandAtLine_eq_outline
    (commands : List Command)
    (line : Nat) :
    (commandAtLine commands line).map Command.heading =
      ((headings (outline commands)).filter fun command =>
        command.startLine == some line).getLast? := by
  rw [headings_outline, List.filter_map, List.getLast?_map]
  simp [commandAtLine, Function.comp_def]

end ScriptCompletion.Script

namespace ScriptCompletion.LoadRequest

open Script (Event)

/-- What a command asks for stands in its heading. -/
@[simp]
theorem ofCommand?_heading (command : Script.Command) :
    ofCommand? command.heading = ofCommand? command := by
  unfold ofCommand?
  rw [Script.Command.isStandard_heading, Script.Command.startLine_heading]
  rfl

/-- The request that an event makes. -/
def ofEvent? (event : Event) : Option LoadRequest :=
  event.command?.bind ofCommand?

/-- The requests of a script are found in its outline. -/
theorem collect_eq_outline (commands : List Script.Command) :
    collect commands = (Script.outline commands).filterMap ofEvent? := by
  rw [collect, Script.flatten_eq_trace, List.filterMap_filterMap]
  simp [Script.outline, List.filterMap_map, Function.comp_def, ofEvent?,
    Option.bind_map]

/-- A request has the line of its command. -/
theorem line_of_ofEvent?
    {event : Event}
    {request : LoadRequest}
    (made : ofEvent? event = some request) :
    request.line = event.line? := by
  cases event with
  | close range closed =>
      cases made
  | visit command =>
      simp only [ofEvent?, Event.command?, Option.bind_some,
        ofCommand?] at made
      split at made
      · obtain ⟨argument, -, rfl⟩ := Option.map_eq_some_iff.mp made
        rfl
      · cases made

end ScriptCompletion.LoadRequest
