import ScriptCompletion.Proofs.Layout
import ScriptCompletion.Proofs.ParserStack
import ScriptCompletion.Proofs.ScriptGrammar

namespace ScriptCompletion

/-!
# Trees are faithful to their texts and well nested

The marks of a script stand one behind the other, since the tokens do that add
them.  The marks of a command begin with its name, and the last one is where the
command ends; those of its block lie between the two parentheses.  So commands
and blocks lie inside each other or one behind the other, and what is written in
the tree is the text at its place.
-/

/-- Whether a stretch of text lies inside another one. -/
def Span.IsInside
    (inner outer : Span) : Prop :=
  outer.start ≤ inner.start ∧ inner.stop ≤ outer.stop

namespace Script

/-!
## The marks of a script are in order
-/

/-- The first mark ends before the second one starts. -/
def Mark.IsBefore
    (first second : Mark) : Prop :=
  ∀ earlier later,
    first.range = some earlier →
    second.range = some later →
    earlier.stop ≤ later.start

/-- The marks of a token begin at its start or behind it, and end where the token
does. -/
theorem Token.range_of_mem_marks
    {token : Token}
    (ordered : token.column ≤ token.stopColumn)
    {mark : Mark}
    (member : mark ∈ token.marks) :
    ∃ span,
      mark.range = some span ∧
        token.start ≤ span.start ∧
        span.stop = token.stop := by
  have atStop : token.start ≤ token.stop :=
    Position.le_iff.mpr (.inr ⟨rfl, ordered⟩)
  unfold Token.marks at member
  split at member
  · cases member
  · simp only [List.mem_cons, List.not_mem_nil, or_false] at member
    rcases member with rfl | rfl
    · exact ⟨token.span, rfl, Position.le_refl _, rfl⟩
    · exact ⟨⟨token.stop, token.stop⟩, rfl, atStop, rfl⟩

/-- Every token of a text ends at its start or behind it. -/
theorem column_le_of_mem_lex
    {text : String}
    {token : Token}
    (member : token ∈ (lex text).tokens)
    (inside : token.kind.endsLine = false) :
    token.column ≤ token.stopColumn := by
  obtain ⟨line, isText⟩ := exists_isTextOf_of_mem_lex member inside
  exact isText.ordered

theorem inside_of_mem_marks
    {token : Token}
    {mark : Mark}
    (member : mark ∈ token.marks) :
    token.kind.endsLine = false := by
  cases ends : token.kind.endsLine with
  | false =>
      rfl
  | true =>
      simp [Token.marks, ends] at member

theorem lex_separated (text : String) :
    (lex text).tokens.Pairwise Token.IsBefore := by
  rw [lex_eq_lexLines]
  exact lexLines_separated 0 _ _

/-- The marks of the tokens of a text are in order. -/
theorem marks_lex_sorted (text : String) :
    ((lex text).tokens.flatMap Token.marks).Pairwise Mark.IsBefore := by
  rw [List.pairwise_flatMap]
  constructor
  · intro token member
    unfold Token.marks
    split
    · exact .nil
    · rw [List.pairwise_pair]
      intro earlier later isEarlier isLater
      cases isEarlier
      cases isLater
      exact Position.le_refl _
  · refine (lex_separated text).imp_of_mem ?_
    intro first second isFirst isSecond before mark isMark other isOther
    obtain ⟨span, isSpan, -, atStop⟩ :=
      Token.range_of_mem_marks
        (column_le_of_mem_lex isFirst (inside_of_mem_marks isMark)) isMark
    obtain ⟨otherSpan, isOtherSpan, fromStart, -⟩ :=
      Token.range_of_mem_marks
        (column_le_of_mem_lex isSecond (inside_of_mem_marks isOther)) isOther
    intro earlier later isEarlier isLater
    rw [isSpan, Option.some.injEq] at isEarlier
    rw [isOtherSpan, Option.some.injEq] at isLater
    subst earlier later
    rw [atStop]
    exact Position.le_trans before fromStart

/-- The marks of a text stand before its end. -/
theorem stop_le_lastPosition
    {text : String}
    {mark : Mark}
    (member : mark ∈ (lex text).tokens.flatMap Token.marks)
    {span : Span}
    (isSpan : mark.range = some span) :
    span.stop ≤ lastPosition (lex text).tokens := by
  obtain ⟨token, isToken, isMark⟩ := List.mem_flatMap.mp member
  have inside := inside_of_mem_marks isMark
  obtain ⟨own, isOwn, -, atStop⟩ :=
    Token.range_of_mem_marks (column_le_of_mem_lex isToken inside) isMark
  rw [isSpan, Option.some.injEq] at isOwn
  subst own
  have separated := lex_separated text
  obtain ⟨tokens, last, shape, isEnd, -⟩ := tokens_lex text
  rw [shape, List.pairwise_append] at separated
  rw [shape, List.mem_append, List.mem_singleton] at isToken
  rcases isToken with isEarlier | isLast
  · rw [atStop, shape]
    have before := separated.2.2 token isEarlier last (by simp)
    simpa [lastPosition, Token.IsBefore] using before
  · subst token
    simp [isEnd, TokenKind.endsLine] at inside

/-- The marks of a script are in order. -/
theorem layout_parse_sorted (text : String) :
    (layout (parse text).commands).Pairwise Mark.IsBefore := by
  unfold parse
  split
  · exact .nil
  · obtain ⟨located, count, shape, fromTokens⟩ :=
      layout_parseTokens fun token (member : token ∈ (lex text).tokens) =>
        isProper_of_mem_lex member
    rw [shape, List.pairwise_append]
    refine ⟨(marks_lex_sorted text).sublist fromTokens, ?_, ?_⟩
    · rw [List.pairwise_replicate]
      refine .inr ?_
      intro earlier later isEarlier isLater
      cases isEarlier
      cases isLater
      exact Position.le_refl _
    · intro mark isMark limit isLimit earlier later isEarlier isLater
      rw [List.eq_of_mem_replicate isLimit] at isLater
      cases isLater
      exact stop_le_lastPosition (fromTokens.subset isMark) isEarlier

/-!
## Every command is made from a line
-/

/-- Whether a command was made from a name and arguments of one line, with a block
that has a range, or without one. -/
def Command.IsMade (command : Command) : Prop :=
  ∃ header block,
    command = Header.toCommand header block ∧
      header.IsOnLine ∧
      ∀ own,
        block = some own →
        ∃ range, own.range = some range

/-- Whether all commands of a list and of their blocks were made from lines. -/
def AreMade (commands : List Command) : Prop :=
  ∀ command ∈ flatten commands, command.IsMade

theorem areMade_nil : AreMade [] := by
  simp [AreMade, flatten_eq_trace, traceAll]

theorem areMade_cons
    {command : Command}
    {commands : List Command} :
    AreMade (command :: commands) ↔ AreMade [command] ∧ AreMade commands := by
  simp only [AreMade, flatten_cons command commands, List.mem_append, or_imp,
    forall_and]

theorem areMade_iff
    {commands : List Command} :
    AreMade commands ↔ ∀ command ∈ commands, AreMade [command] := by
  induction commands with
  | nil =>
      simp [areMade_nil]
  | cons command rest inductionHypothesis =>
      rw [areMade_cons, inductionHypothesis, List.forall_mem_cons]

theorem areMade_reverse
    {commands : List Command} :
    AreMade commands.reverse ↔ AreMade commands := by
  rw [areMade_iff, @areMade_iff commands]
  simp only [List.mem_reverse]

/-- Whether the open blocks and the commands of a parser were made from lines. -/
def AreMadeInside
    (blocks : List OpenBlock)
    (commands : List Command) : Prop :=
  AreMade commands ∧
    ∀ block ∈ blocks, block.header.IsOnLine ∧ AreMade block.earlier

theorem areMadeInside_kept : KeepsStack AreMadeInside where
  push := by
    intro blocks commands header isOnLine ⟨areMade, inBlocks⟩
    refine ⟨areMade_cons.mpr ⟨?_, areMade⟩, inBlocks⟩
    have plain : (header.toCommand none).block = none := rfl
    intro command member
    rw [flatten_of_plain plain, List.mem_singleton] at member
    exact ⟨header, none, member, isOnLine, by simp⟩
  enter := by
    intro blocks commands header isOnLine _ ⟨areMade, inBlocks⟩ opening
    refine ⟨areMade_nil, ?_⟩
    rw [List.forall_mem_cons]
    exact ⟨⟨isOnLine, areMade⟩, inBlocks⟩
  leave := by
    intro block outer commands ⟨areMade, inBlocks⟩ stop closed
    rw [List.forall_mem_cons] at inBlocks
    obtain ⟨⟨isOnLine, earlierMade⟩, inOuter⟩ := inBlocks
    refine ⟨areMade_cons.mpr ⟨?_, earlierMade⟩, inOuter⟩
    have opens :
        (block.header.toCommand
          (some
            { commands := commands.reverse
              range := some ⟨block.opening.start, stop⟩
              closed := closed })).block =
          some
            { commands := commands.reverse
              range := some ⟨block.opening.start, stop⟩
              closed := closed } :=
      rfl
    intro command member
    rw [flatten_of_block opens, List.mem_cons] at member
    rcases member with isOpener | isInside
    · refine ⟨block.header, _, isOpener, isOnLine, ?_⟩
      intro own isOwn
      cases isOwn
      exact ⟨_, rfl⟩
    · exact areMade_reverse.mpr areMade command isInside

/-- What lies in the block of a command of a script belongs to the script. -/
theorem mem_flatten_of_block
    {commands : List Command}
    {command inner : Command}
    (member : command ∈ flatten commands)
    {block : Block Command}
    (opens : command.block = some block)
    (inside : inner ∈ flatten block.commands) :
    inner ∈ flatten commands := by
  rw [mem_flatten] at *
  apply (traceAll_sublist commands member).subset
  rw [Command.trace_of_block opens]
  exact List.mem_cons_of_mem _ (List.mem_append_left _ inside)

/-- Every command of a script was made from a line. -/
theorem isMade_of_mem_parse
    {text : String}
    {command : Command}
    (member : command ∈ flatten (parse text).commands) :
    command.IsMade := by
  have atStart : AreMadeInside [] [] :=
    ⟨areMade_nil, by simp⟩
  exact areMade_reverse.mp (areMadeInside_kept.parse atStart text).1 command
    member

/-!
## Blocks are nested at most so deep
-/

mutual

/-- How many blocks lie inside each other in a command. -/
def Command.nesting (command : Command) : Nat :=
  match command with
  | ⟨_, _, _, _, _, none⟩ =>
      0
  | ⟨_, _, _, _, _, some ⟨commands, _, _⟩⟩ =>
      nestingAll commands + 1

/-- How many blocks lie inside each other in commands. -/
def nestingAll (commands : List Command) : Nat :=
  match commands with
  | [] =>
      0
  | command :: rest =>
      max command.nesting (nestingAll rest)

end

theorem nestingAll_le_iff
    {commands : List Command}
    {depth : Nat} :
    nestingAll commands ≤ depth ↔
      ∀ command ∈ commands, command.nesting ≤ depth := by
  induction commands with
  | nil =>
      simp [nestingAll]
  | cons command rest inductionHypothesis =>
      rw [nestingAll, Nat.max_le, inductionHypothesis, List.forall_mem_cons]

theorem nestingAll_reverse (commands : List Command) :
    nestingAll commands.reverse = nestingAll commands := by
  apply Nat.le_antisymm
  · rw [nestingAll_le_iff]
    intro command member
    exact nestingAll_le_iff.mp (Nat.le_refl _) command
      (List.mem_reverse.mp member)
  · rw [nestingAll_le_iff]
    intro command member
    exact nestingAll_le_iff.mp (Nat.le_refl _) command
      (List.mem_reverse.mpr member)

/-- Whether the blocks in commands and around them are no more than allowed. -/
def FitInside : List OpenBlock → List Command → Prop
  | [], commands =>
      nestingAll commands ≤ maxBlockDepth
  | block :: outer, commands =>
      nestingAll commands + (outer.length + 1) ≤ maxBlockDepth ∧
        FitInside outer block.earlier

/-- What fits depends on how deep the commands are nested only. -/
theorem FitInside.of_nestingAll_le
    {blocks : List OpenBlock}
    {commands more : List Command}
    (fit : FitInside blocks commands)
    (allowed :
      nestingAll more ≤ nestingAll commands ∨
        nestingAll more + blocks.length ≤ maxBlockDepth) :
    FitInside blocks more := by
  cases blocks with
  | nil =>
      simp only [FitInside, List.length_nil] at *
      omega
  | cons block outer =>
      simp only [FitInside, List.length_cons] at *
      exact ⟨by omega, fit.2⟩

theorem fitInside_kept : KeepsStack FitInside where
  push := by
    intro blocks commands header _ fit
    apply fit.of_nestingAll_le
    have noBlock : (header.toCommand none).nesting = 0 := by
      simp [Header.toCommand, Command.nesting]
    simp [nestingAll, noBlock]
  enter := by
    intro blocks commands header _ allowed fit opening
    refine ⟨?_, fit⟩
    simp only [nestingAll]
    omega
  leave := by
    intro block outer commands both stop closed
    obtain ⟨inside, fit⟩ := both
    apply fit.of_nestingAll_le
    have oneMore :
        (block.header.toCommand
          (some
            { commands := commands.reverse
              range := some ⟨block.opening.start, stop⟩
              closed := closed })).nesting = nestingAll commands + 1 := by
      simp [Header.toCommand, Command.nesting, nestingAll_reverse]
    simp only [nestingAll, oneMore]
    omega

/-- The blocks of a script are nested no deeper than allowed. -/
theorem nestingAll_parse_le (text : String) :
    nestingAll (parse text).commands ≤ maxBlockDepth := by
  have fit := fitInside_kept.parse (by simp [FitInside, nestingAll]) text
  rw [← nestingAll_reverse]
  exact fit

/-!
## Where commands stand
-/

/-- What is written in a tree is the text at its place, and takes room. -/
theorem textAt?_of_mem_layout
    {text : String}
    {piece : Piece}
    (member : .written piece ∈ layout (parse text).commands) :
    ∃ span,
      piece.range = some span ∧
        Text.textAt? text span = some piece.text ∧
        span.start < span.stop := by
  have inTraversal : piece ∈ traversal (parse text).commands := by
    rw [← filterMap_layout]
    exact List.mem_filterMap.mpr ⟨_, member, rfl⟩
  obtain ⟨token, isInside, rfl⟩ :=
    List.mem_map.mp ((traversal_sublist_lex text).subset inTraversal)
  obtain ⟨isToken, notEnd⟩ := List.mem_filter.mp isInside
  have inside : token.kind.endsLine = false := by
    simpa using notEnd
  have filled : token.column < token.stopColumn := by
    rw [lex_eq_lexLines] at isToken
    exact column_lt_of_mem_lexLines isToken inside
  exact ⟨token.span, rfl, textAt?_of_mem_lex isToken inside,
    Position.lt_iff.mpr (.inr ⟨rfl, filled⟩)⟩

/-- Whether a command has a range that begins with its name and ends with a mark
behind its line. -/
structure Command.IsBounded
    (command : Command)
    (range : Span) : Prop where
  hasRange :
    command.range = some range
  starts :
    ∃ name, command.nameRange = some name ∧ name.start = range.start
  ends :
    ∃ rest,
      layout [command] = command.line.map .written ++ rest ∧
        ∃ mark ∈ rest,
          ∃ span,
            mark.range = some span ∧
              span.start ≤ span.stop ∧
              span.stop = range.stop

/-- The end of a block is a mark. -/
theorem Event.range_marks_close
    (range : Span)
    (closed : Bool) :
    ∃ mark ∈ (Event.close (some range) closed).marks,
      ∃ span,
        mark.range = some span ∧
          span.start ≤ span.stop ∧
          span.stop = range.stop := by
  cases closed with
  | false =>
      exact ⟨.limit (some range.stop), by simp [Event.marks], _, rfl,
        Position.le_refl _, rfl⟩
  | true =>
      refine ⟨.written (.closing (some range.stop)), by simp [Event.marks], _,
        rfl, ?_, rfl⟩
      exact Position.le_iff.mpr (.inr ⟨rfl, Nat.sub_le _ _⟩)

/-- A command that was made from a line is bounded by its name and its end. -/
theorem Command.IsMade.isBounded
    {command : Command}
    (isMade : command.IsMade) :
    ∃ range, command.IsBounded range := by
  obtain ⟨header, block, rfl, -, hasRange⟩ := isMade
  have starts
      (stop : Position) :
      ∃ name,
        (header.toCommand block).nameRange = some name ∧
          name.start = (Span.mk header.name.start stop).start :=
    ⟨header.name.span, rfl, rfl⟩
  cases block with
  | none =>
      refine ⟨⟨header.name.start, header.stop⟩, rfl, starts _, _,
        layout_plain rfl, ?_⟩
      exact ⟨_, List.mem_cons_self, _, rfl, Position.le_refl _, rfl⟩
  | some own =>
      obtain ⟨range, isRange⟩ := hasRange own rfl
      have ranged :
          (header.toCommand (some own)).range =
            some ⟨header.name.start, range.stop⟩ := by
        simp [Header.toCommand, isRange]
      refine ⟨⟨header.name.start, range.stop⟩, ranged, starts _, _,
        layout_block rfl, ?_⟩
      obtain ⟨mark, isMark, atEnd⟩ := Event.range_marks_close range own.closed
      rw [isRange]
      exact ⟨mark,
        List.mem_cons_of_mem _ (List.mem_append_right _ isMark), atEnd⟩

namespace Command.IsBounded

variable {command : Command} {range : Span}

/-- The name of a command is a mark at its start. -/
theorem first
    (isBounded : command.IsBounded range) :
    ∃ mark ∈ layout [command],
      ∃ span, mark.range = some span ∧ span.start = range.start := by
  obtain ⟨name, hasName, atStart⟩ := isBounded.starts
  obtain ⟨rest, shape, -⟩ := isBounded.ends
  refine ⟨.written ⟨command.qualifiedName, command.nameRange⟩, ?_, name,
    hasName, atStart⟩
  rw [shape]
  exact List.mem_append_left _ (List.mem_map_of_mem List.mem_cons_self)

/-- The end of a command is a mark. -/
theorem last
    (isBounded : command.IsBounded range) :
    ∃ mark ∈ layout [command],
      ∃ span, mark.range = some span ∧ span.stop = range.stop := by
  obtain ⟨rest, shape, mark, isMark, span, isSpan, -, atStop⟩ := isBounded.ends
  refine ⟨mark, ?_, span, isSpan, atStop⟩
  rw [shape]
  exact List.mem_append_right _ isMark

/-- The line of a command whose marks are in order ends before the command
does. -/
theorem line_stop_le
    (isBounded : command.IsBounded range)
    (sorted : (layout [command]).Pairwise Mark.IsBefore)
    {piece : Piece}
    (inLine : piece ∈ command.line)
    {span : Span}
    (isSpan : piece.range = some span) :
    span.stop ≤ range.stop := by
  obtain ⟨rest, shape, mark, isMark, own, isOwn, ordered, atStop⟩ :=
    isBounded.ends
  rw [shape, List.pairwise_append] at sorted
  have before :=
    sorted.2.2 (.written piece) (List.mem_map_of_mem inLine) mark isMark span own
      isSpan isOwn
  rw [← atStop]
  exact Position.le_trans before ordered

end Command.IsBounded

/-- The first command ends before the second one starts. -/
def Command.IsBefore
    (first second : Command) : Prop :=
  ∃ earlier later,
    first.range = some earlier ∧
      second.range = some later ∧
      earlier.stop ≤ later.start

/-- The first command starts before the second one does. -/
def Command.StartsBefore
    (first second : Command) : Prop :=
  ∃ earlier later,
    first.range = some earlier ∧
      second.range = some later ∧
      earlier.start < later.start

theorem layout_eq_flatMap (commands : List Command) :
    layout commands = commands.flatMap fun command => layout [command] := by
  induction commands with
  | nil =>
      simp
  | cons command rest inductionHypothesis =>
      rw [List.flatMap_cons, ← inductionHypothesis, ← layout_append]
      rfl

/-- Commands whose marks are in order stand one behind the other. -/
theorem isBefore_of_sorted
    {commands : List Command}
    (areMade : AreMade commands)
    (sorted : (layout commands).Pairwise Mark.IsBefore) :
    commands.Pairwise Command.IsBefore := by
  rw [layout_eq_flatMap, List.pairwise_flatMap] at sorted
  refine sorted.2.imp_of_mem ?_
  intro first second isFirst isSecond before
  obtain ⟨earlier, firstBounded⟩ :=
    (areMade first (mem_flatten_of_mem isFirst)).isBounded
  obtain ⟨later, secondBounded⟩ :=
    (areMade second (mem_flatten_of_mem isSecond)).isBounded
  obtain ⟨mark, isMark, span, isSpan, atStop⟩ := firstBounded.last
  obtain ⟨other, isOther, otherSpan, isOtherSpan, atStart⟩ :=
    secondBounded.first
  refine ⟨earlier, later, firstBounded.hasRange, secondBounded.hasRange, ?_⟩
  rw [← atStop, ← atStart]
  exact before mark isMark other isOther span otherSpan isSpan isOtherSpan

/-- What holds of the block of a command whose name and arguments stand at the
given places. -/
structure Block.IsWithin
    (block : Block Command)
    (range : Span)
    (line : List Span)
    (blockRange : Span) : Prop where
  hasRange :
    block.range = some blockRange
  behindLine :
    ∀ span ∈ line, span.stop ≤ blockRange.start
  inside :
    blockRange.IsInside range
  children :
    ∀ child ∈ block.commands,
      ∃ childRange,
        child.range = some childRange ∧ childRange.IsInside blockRange
  siblings :
    block.commands.Pairwise Command.IsBefore

/-- What holds of a command that stands at the given places of a text. -/
structure Command.StandsAt
    (command : Command)
    (text : String)
    (range name : Span)
    (arguments : List Span) : Prop where
  hasRange :
    command.range = some range
  hasName :
    command.nameRange = some name
  hasArguments :
    command.arguments.map Argument.range = arguments.map some
  startsWithName :
    range.start = name.start
  nameText :
    Text.textAt? text name = some command.qualifiedName
  nameLength :
    command.qualifiedName.length = command.qualifiedLength
  argumentTexts :
    arguments.map (Text.textAt? text) =
      command.arguments.map fun argument => some argument.raw
  onOneLine :
    ∀ span ∈ name :: arguments,
      span.start.line = range.start.line ∧ span.stop.line = range.start.line
  inOrder :
    (name :: arguments).Pairwise fun first second => first.stop ≤ second.start
  insideRange :
    ∀ span ∈ name :: arguments, span.IsInside range
  block :
    ∀ block,
      command.block = some block →
      ∃ blockRange, block.IsWithin range (name :: arguments) blockRange

/-- Whether a command has places at which it is written in the text. -/
def Command.IsFaithful
    (command : Command)
    (text : String) : Prop :=
  ∃ range name arguments, command.StandsAt text range name arguments

/-- The block of a command whose marks are in order lies behind its line, and the
commands of the block lie in it one behind the other. -/
theorem Command.block_of_sorted
    {command : Command}
    {block : Block Command}
    (opens : command.block = some block)
    {blockRange : Span}
    (hasRange : block.range = some blockRange)
    (areMade : AreMade block.commands)
    (sorted : (layout [command]).Pairwise Mark.IsBefore) :
    (∀ piece ∈ command.line,
      ∀ span,
        piece.range = some span →
        span.stop ≤ blockRange.start) ∧
    (∀ child ∈ block.commands,
      ∃ childRange,
        child.range = some childRange ∧ childRange.IsInside blockRange) ∧
    block.commands.Pairwise Command.IsBefore := by
  rw [layout_block opens, hasRange, List.pairwise_append, List.pairwise_cons,
    List.pairwise_append] at sorted
  obtain ⟨-, ⟨behindOpening, childrenSorted, -, beforeEnd⟩, behindLine⟩ := sorted
  refine ⟨?_, ?_, isBefore_of_sorted areMade childrenSorted⟩
  · intro piece inLine span isSpan
    have before :=
      behindLine (.written piece) (List.mem_map_of_mem inLine) _
        List.mem_cons_self span _ isSpan rfl
    exact before
  · intro child member
    have isInside := mem_flatten_of_mem member
    have marksInside := (layout_sublist_of_mem isInside).subset
    obtain ⟨childRange, isBounded⟩ := (areMade child isInside).isBounded
    obtain ⟨mark, isMark, span, isSpan, atStart⟩ := isBounded.first
    obtain ⟨other, isOther, otherSpan, isOtherSpan, atStop⟩ := isBounded.last
    obtain ⟨ending, isEnding, endSpan, isEndSpan, ordered, atEnd⟩ :=
      Event.range_marks_close blockRange block.closed
    refine ⟨childRange, isBounded.hasRange, ?_, ?_⟩
    · have opening :
          blockRange.start ≤ ⟨blockRange.start.line, blockRange.start.column + 1⟩ :=
        Position.le_iff.mpr (.inr ⟨rfl, Nat.le_succ _⟩)
      have behind :=
        behindOpening mark (List.mem_append_left _ (marksInside isMark)) _ span
          rfl isSpan
      rw [← atStart]
      exact Position.le_trans opening behind
    · have before :=
        beforeEnd other (marksInside isOther) ending isEnding otherSpan endSpan
          isOtherSpan isEndSpan
      rw [← atStop, ← atEnd]
      exact Position.le_trans before ordered

theorem Command.length_qualifiedName (command : Command) :
    command.qualifiedName.length = command.qualifiedLength := by
  have colon : ":".length = 1 := rfl
  cases isQualified : command.qualifier <;>
    simp [qualifiedName, qualifiedLength, isQualified, colon]

/-- The tokens that the line of a command was made from are written in the text,
in order, on one line. -/
theorem tokens_of_line
    {text : String}
    {header : Header}
    {block : Option (Block Command)}
    (member : header.toCommand block ∈ flatten (parse text).commands)
    {tokens : List Token}
    (shape : header.line = tokens.map Token.piece) :
    (∀ token ∈ tokens,
      Text.textAt? text token.span = some token.value ∧
        token.start < token.stop) ∧
    tokens.Pairwise fun first second => first.stop ≤ second.start := by
  have sublist := layout_sublist_of_mem member
  have lineSublist :
      (tokens.map fun token => Mark.written token.piece).Sublist
        (layout (parse text).commands) := by
    obtain ⟨range, isBounded⟩ := (isMade_of_mem_parse member).isBounded
    obtain ⟨rest, layoutShape, -⟩ := isBounded.ends
    rw [layoutShape, Header.line_toCommand, shape, List.map_map] at sublist
    exact (List.sublist_append_left _ _).trans sublist
  constructor
  · intro token isToken
    obtain ⟨span, isSpan, written, filled⟩ :=
      textAt?_of_mem_layout (lineSublist.subset (List.mem_map_of_mem isToken))
    cases isSpan
    exact ⟨written, filled⟩
  · have sorted := (layout_parse_sorted text).sublist lineSublist
    rw [List.pairwise_map] at sorted
    exact sorted.imp fun {first second} before =>
      before first.span second.span rfl rfl

/-- A command is written from its name on. -/
theorem Command.IsBounded.start_eq
    {header : Header}
    {block : Option (Block Command)}
    {range : Span}
    (isBounded : (header.toCommand block).IsBounded range) :
    range.start = header.name.start := by
  obtain ⟨name, hasName, atStart⟩ := isBounded.starts
  cases hasName
  exact atStart.symm

/-- The tokens of the line of a command lie inside the command. -/
theorem line_isInside
    {text : String}
    {header : Header}
    {block : Option (Block Command)}
    (member : header.toCommand block ∈ flatten (parse text).commands)
    {range : Span}
    (isBounded : (header.toCommand block).IsBounded range)
    {arguments : List Token}
    (shape : header.line = (header.name :: arguments).map Token.piece) :
    ∀ token ∈ header.name :: arguments, token.span.IsInside range := by
  obtain ⟨written, ordered⟩ := tokens_of_line member shape
  have sorted :=
    (layout_parse_sorted text).sublist (layout_sublist_of_mem member)
  intro token isToken
  constructor
  · rw [isBounded.start_eq]
    rcases List.mem_cons.mp isToken with isName | isArgument
    · exact isName ▸ Position.le_refl _
    · exact Position.le_trans (Position.le_of_lt (written _ (by simp)).2)
        ((List.pairwise_cons.mp ordered).1 token isArgument)
  · have inLine : token.piece ∈ (header.toCommand block).line := by
      rw [Header.line_toCommand, shape]
      exact List.mem_map_of_mem isToken
    exact isBounded.line_stop_le sorted inLine rfl

/-- The block of a command lies behind its line and inside the command. -/
theorem block_isWithin
    {text : String}
    {header : Header}
    {block : Block Command}
    (member : header.toCommand (some block) ∈ flatten (parse text).commands)
    {range : Span}
    (isBounded : (header.toCommand (some block)).IsBounded range)
    {arguments : List Token}
    (shape : header.line = (header.name :: arguments).map Token.piece)
    {blockRange : Span}
    (hasRange : block.range = some blockRange) :
    block.IsWithin range ((header.name :: arguments).map Token.span)
      blockRange := by
  obtain ⟨written, -⟩ := tokens_of_line member shape
  have sorted :=
    (layout_parse_sorted text).sublist (layout_sublist_of_mem member)
  have areMade : AreMade block.commands := fun inner inside =>
    isMade_of_mem_parse (mem_flatten_of_block member rfl inside)
  obtain ⟨behindLine, children, siblings⟩ :=
    Command.block_of_sorted rfl hasRange areMade sorted
  have behindTokens :
      ∀ token ∈ header.name :: arguments, token.stop ≤ blockRange.start := by
    intro token isToken
    refine behindLine token.piece ?_ token.span rfl
    rw [Header.line_toCommand, shape]
    exact List.mem_map_of_mem isToken
  have stops : range.stop = blockRange.stop := by
    have isRange := isBounded.hasRange
    simp only [Header.toCommand, hasRange, Option.bind_some,
      Option.some.injEq] at isRange
    exact isRange ▸ rfl
  refine ⟨hasRange, List.forall_mem_map.mpr behindTokens, ⟨?_, ?_⟩, children,
    siblings⟩
  · rw [isBounded.start_eq]
    exact Position.le_trans (Position.le_of_lt (written _ (by simp)).2)
      (behindTokens header.name (by simp))
  · rw [stops]
    exact Position.le_refl _

/-- Every command of a script stands where it is written. -/
theorem isFaithful_of_mem_parse
    {text : String}
    {command : Command}
    (member : command ∈ flatten (parse text).commands) :
    command.IsFaithful text := by
  have isMade := isMade_of_mem_parse member
  obtain ⟨range, isBounded⟩ := isMade.isBounded
  obtain ⟨header, block, rfl, ⟨arguments, shape, onLine⟩, blockRanged⟩ := isMade
  have lineShape :
      header.line = (header.name :: arguments.reverse).map Token.piece := by
    simp [Header.line, shape, Function.comp_def]
  have argumentShape :
      (header.toCommand block).arguments =
        arguments.reverse.map Argument.ofToken := by
    simp [Header.toCommand, shape]
  obtain ⟨written, ordered⟩ := tokens_of_line member lineShape
  refine ⟨range, header.name.span, arguments.reverse.map Token.span,
    { hasRange := isBounded.hasRange
      hasName := rfl
      hasArguments := ?_
      startsWithName := isBounded.start_eq
      nameText := ?_
      nameLength := Command.length_qualifiedName _
      argumentTexts := ?_
      onOneLine := ?_
      inOrder := ?_
      insideRange := ?_
      block := ?_ }⟩
  · rw [argumentShape, List.map_map, List.map_map]
    rfl
  · rw [qualifiedName_toCommand]
    exact (written header.name (by simp)).1
  · rw [argumentShape, List.map_map, List.map_map]
    apply List.map_congr_left
    intro token isArgument
    exact (written token (List.mem_cons_of_mem _ isArgument)).1
  · rw [← List.map_cons, List.forall_mem_map, isBounded.start_eq,
      List.forall_mem_cons]
    refine ⟨⟨rfl, rfl⟩, ?_⟩
    intro token isArgument
    have sameLine := onLine token (List.mem_reverse.mp isArgument)
    exact ⟨sameLine, sameLine⟩
  · rw [← List.map_cons, List.pairwise_map]
    exact ordered
  · rw [← List.map_cons, List.forall_mem_map]
    exact line_isInside member isBounded lineShape
  · intro own opens
    cases opens
    obtain ⟨blockRange, hasRange⟩ := blockRanged own rfl
    exact ⟨blockRange, block_isWithin member isBounded lineShape hasRange⟩

/-- The commands of a script start one after the other. -/
theorem flatten_parse_startsBefore (text : String) :
    (flatten (parse text).commands).Pairwise Command.StartsBefore := by
  have sorted := layout_parse_sorted text
  rw [layout, List.pairwise_flatMap] at sorted
  rw [flatten_eq_trace, List.pairwise_filterMap]
  refine sorted.2.imp_of_mem ?_
  intro event other isEvent isOther before first isFirst second isSecond
  cases event with
  | close range closed =>
      cases isFirst
  | visit command =>
      cases other with
      | close range closed =>
          cases isSecond
      | visit later =>
          cases isFirst
          cases isSecond
          have named
              (own : Command) :
              .written ⟨own.qualifiedName, own.nameRange⟩ ∈
                (Event.visit own).marks :=
            List.mem_append_left _ List.mem_cons_self
          obtain ⟨range, isBounded⟩ :=
            (isMade_of_mem_parse (mem_flatten.mpr isEvent)).isBounded
          obtain ⟨laterRange, laterBounded⟩ :=
            (isMade_of_mem_parse (mem_flatten.mpr isOther)).isBounded
          obtain ⟨name, hasName, atStart⟩ := isBounded.starts
          obtain ⟨laterName, hasLaterName, atLaterStart⟩ := laterBounded.starts
          obtain ⟨span, isSpan, -, filled⟩ :=
            textAt?_of_mem_layout
              (List.mem_flatMap.mpr ⟨.visit first, isEvent, named first⟩)
          have sameSpan : span = name :=
            Option.some.inj (isSpan.symm.trans hasName)
          have inOrder :=
            before _ (named first) _ (named second) name laterName hasName
              hasLaterName
          refine ⟨range, laterRange, isBounded.hasRange, laterBounded.hasRange, ?_⟩
          rw [← atStart, ← atLaterStart, ← sameSpan]
          exact Position.lt_of_lt_of_le filled (sameSpan ▸ inOrder)

/--
The tree of every text is faithful to it and well nested.  Names and arguments are
the text at their places; they stand in order on the line on which their command
starts, before its block; a block lies inside its command, the commands of a block
lie inside it one behind the other, at most 64 blocks lie inside each other, and the
commands of the script start one after the other.
-/
theorem tree_faithful_and_nested
    (text : String) :
    (∀ command ∈ flatten (parse text).commands, command.IsFaithful text) ∧
      (parse text).commands.Pairwise Command.IsBefore ∧
      nestingAll (parse text).commands ≤ 64 ∧
      (flatten (parse text).commands).Pairwise Command.StartsBefore := by
  have areMade : AreMade (parse text).commands :=
    fun command => isMade_of_mem_parse
  refine ⟨fun command => isFaithful_of_mem_parse, ?_, ?_, ?_⟩
  · exact isBefore_of_sorted areMade (layout_parse_sorted text)
  · exact nestingAll_parse_le text
  · exact flatten_parse_startsBefore text

theorem tree_faithful_and_nested_block :
    let text := "ar:connect 0x (\n  set $x 'y z' (3 )\n) x ("
    (flatten (parse text).commands).map Command.qualifiedName =
        ["ar:connect", "set", "x"] ∧
      ∀ command ∈ flatten (parse text).commands, command.IsFaithful text := by
  intro text
  exact ⟨by decide +kernel, (tree_faithful_and_nested text).1⟩

end Script

end ScriptCompletion
