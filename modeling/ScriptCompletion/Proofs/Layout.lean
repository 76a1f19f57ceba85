import Mathlib.Data.List.Flatten
import ScriptCompletion.Proofs.Outline
import ScriptCompletion.Proofs.TokenText
import ScriptCompletion.Script.Parser

namespace ScriptCompletion.Script

/-!
# The layout of a script

A tree keeps what is written at its places: names, arguments and the parentheses
of its blocks.  Its traversal lists them in source order, and its layout has in
addition the places at which a command without a block or a block without a
closing parenthesis ends.

The parser lays a script out from left to right.  A token adds itself and the
place where it ends; of what was there before it can take away the parenthesis
in front of it, when that one opens no block, and the place where the command in
front of it seemed to end.  So the layout of a script is a part of what its
tokens add, in the same order.
-/

/-- What is written at a place of a script. -/
structure Piece where
  text : String
  range : Option Span
deriving Repr, DecidableEq

namespace Piece

/-- The parenthesis at the start of a block. -/
def opening (start : Option Position) : Piece where
  text := "("
  range := start.map fun start => ⟨start, ⟨start.line, start.column + 1⟩⟩

/-- The parenthesis at the end of a block. -/
def closing (stop : Option Position) : Piece where
  text := ")"
  range := stop.map fun stop => ⟨⟨stop.line, stop.column - 1⟩, stop⟩

end Piece

/-- A token as it is written. -/
def Token.piece (token : Token) : Piece where
  text := token.value
  range := some token.span

/-- An argument as it is written. -/
def Argument.piece (argument : Argument) : Piece where
  text := argument.raw
  range := argument.range

@[simp]
theorem Argument.piece_ofToken (token : Token) :
    (Argument.ofToken token).piece = token.piece :=
  rfl

/-- The name and the arguments of a command. -/
def Command.line (command : Command) : List Piece :=
  ⟨command.qualifiedName, command.nameRange⟩ ::
    command.arguments.map Argument.piece

/-- What is written at an event: the line of a command with the parenthesis that
opens its block, and the parenthesis that closes a block. -/
def Event.pieces : Event → List Piece
  | .visit command =>
      command.line ++
        command.block.toList.map fun block =>
          .opening (block.range.map Span.start)
  | .close range true =>
      [.closing (range.map Span.stop)]
  | .close _ false =>
      []

/-- What is written in a script, in source order: every command's name, its
arguments, the opening parenthesis of its block, the commands of the block, and
the closing parenthesis if there is one. -/
def traversal (commands : List Command) : List Piece :=
  (traceAll commands).flatMap Event.pieces

/-- Something written, or a place at which something ends. -/
inductive Mark where
  | written (piece : Piece)
  | limit (position : Option Position)
deriving Repr, DecidableEq

namespace Mark

/-- What is written there. -/
def piece? : Mark → Option Piece
  | .written piece =>
      some piece
  | .limit _ =>
      none

/-- The room that the mark takes; a limit takes none. -/
def range : Mark → Option Span
  | .written piece =>
      piece.range
  | .limit position =>
      position.map fun position => ⟨position, position⟩

end Mark

/-- The marks that an event makes. -/
def Event.marks : Event → List Mark
  | .visit command =>
      command.line.map .written ++
        [match command.block with
        | none =>
            .limit (command.range.map Span.stop)
        | some block =>
            .written (.opening (block.range.map Span.start))]
  | .close range true =>
      [.written (.closing (range.map Span.stop))]
  | .close range false =>
      [.limit (range.map Span.stop)]

/-- The marks of commands. -/
def layout (commands : List Command) : List Mark :=
  (traceAll commands).flatMap Event.marks

theorem filterMap_piece?_map (pieces : List Piece) :
    (pieces.map Mark.written).filterMap Mark.piece? = pieces := by
  simp [List.filterMap_map, Function.comp_def, Mark.piece?]

theorem Event.filterMap_marks (event : Event) :
    event.marks.filterMap Mark.piece? = event.pieces := by
  cases event with
  | visit command =>
      cases opens : command.block <;>
        simp only [marks, pieces, opens, List.filterMap_append,
          filterMap_piece?_map] <;>
        simp [Mark.piece?]
  | close range closed =>
      cases closed <;> rfl

/-- The traversal is what is written in the layout. -/
theorem filterMap_layout (commands : List Command) :
    (layout commands).filterMap Mark.piece? = traversal commands := by
  simp only [layout, traversal, List.filterMap_flatMap, Event.filterMap_marks]

@[simp]
theorem layout_nil :
    layout [] = [] := by
  simp [layout, traceAll]

theorem layout_append
    (first second : List Command) :
    layout (first ++ second) = layout first ++ layout second := by
  simp [layout, traceAll_append]

theorem layout_plain
    {command : Command}
    (plain : command.block = none) :
    layout [command] =
      command.line.map .written ++ [.limit (command.range.map Span.stop)] := by
  simp [layout, traceAll, Command.trace_of_plain plain, Event.marks, plain]

theorem layout_block
    {command : Command}
    {block : Block Command}
    (opens : command.block = some block) :
    layout [command] =
      command.line.map .written ++
        .written (.opening (block.range.map Span.start)) ::
          (layout block.commands ++
            (Event.close block.range block.closed).marks) := by
  simp [layout, traceAll, Command.trace_of_block opens, Event.marks, opens]

/-- The layout of a script holds those of all its commands. -/
theorem layout_sublist_of_mem
    {command : Command}
    {commands : List Command}
    (member : command ∈ flatten commands) :
    (layout [command]).Sublist (layout commands) := by
  have inside := traceAll_sublist commands (mem_flatten.mp member)
  have single : traceAll [command] = command.trace := by
    simp [traceAll]
  rw [layout, single]
  exact inside.flatMap Event.marks

/-- A name is written as its parts with the colon between them. -/
theorem qualifiedName_toCommand
    (header : Header)
    (block : Option (Block Command)) :
    (header.toCommand block).qualifiedName = header.name.value := by
  simp only [Command.qualifiedName, Header.toCommand, splitQualifier]
  cases front : header.name.value.toList.takeWhile (· ≠ ':') with
  | nil =>
      rfl
  | cons first rest =>
      cases behind : header.name.value.toList.dropWhile (· ≠ ':') with
      | nil =>
          rfl
      | cons colon name =>
          have isColon : colon = ':' := by
            have stopped := List.head?_dropWhile_not (· ≠ ':')
              header.name.value.toList
            rw [behind] at stopped
            simpa using stopped
          have joined :
              first :: rest ++ ':' :: name = header.name.value.toList := by
            rw [← isColon, ← front, ← behind]
            exact List.takeWhile_append_dropWhile
          rw [← String.ofList_toList (s := header.name.value), ← joined]
          simp [String.append_assoc]

namespace Header

/-- The name and the arguments of the command that the header begins. -/
def line (header : Header) : List Piece :=
  header.name.piece :: header.arguments.reverse.map Argument.piece

@[simp]
theorem line_toCommand
    (header : Header)
    (block : Option (Block Command)) :
    (header.toCommand block).line = header.line := by
  rw [Command.line, qualifiedName_toCommand]
  rfl

@[simp]
theorem line_ofName (token : Token) :
    (ofName token).line = [token.piece] :=
  rfl

@[simp]
theorem line_push
    (header : Header)
    (token : Token) :
    (header.push token).line = header.line ++ [token.piece] := by
  simp [line, push]

end Header

/-- The marks of the commands before the innermost of the open blocks, with the
lines that opened them. -/
def OpenBlock.marksBefore : List OpenBlock → List Mark
  | [] =>
      []
  | block :: outer =>
      marksBefore outer ++ layout block.earlier.reverse ++
        (block.header.line.map .written ++
          [.written (.opening (some block.opening.start))])

/-- The marks of the command that is being read.  A parenthesis that may open a
block is among them. -/
def ParserMode.marks : ParserMode → List Mark
  | .idle | .skipping | .ended =>
      []
  | .header current =>
      current.line.map .written ++ [.limit (some current.stop)]
  | .opened current opening =>
      current.line.map .written ++
        [.written (.opening (some opening.start)), .limit (some current.stop)]

namespace Token

/-- Whether a parenthesis is as wide as the one that a block keeps of it. -/
structure IsProper (token : Token) : Prop where
  opening :
    token.kind = .opening →
    token.piece = .opening (some token.start)
  closing :
    token.kind = .closing →
    token.piece = .closing (some token.stop)

/-- The marks that a token can add. -/
def marks (token : Token) : List Mark :=
  if token.kind.endsLine then
    []
  else
    [.written token.piece, .limit (some token.stop)]

theorem marks_of_inside
    {token : Token}
    (inside : token.kind.endsLine = false) :
    token.marks = [.written token.piece, .limit (some token.stop)] := by
  rw [marks, inside]
  rfl

end Token

namespace Parser

/-- The marks of the commands that have been read. -/
def placed (parser : Parser) : List Mark :=
  OpenBlock.marksBefore parser.blocks ++ layout parser.commands.reverse

/-- The marks of everything that has been read. -/
def marks (parser : Parser) : List Mark :=
  parser.placed ++ parser.mode.marks

/-- A command without a block adds its line and the place where it ends. -/
theorem placed_push
    (parser : Parser)
    (header : Header) :
    (parser.push (header.toCommand none)).placed =
      parser.placed ++ (ParserMode.header header).marks := by
  have plain : (header.toCommand none).block = none := rfl
  have stops :
      (header.toCommand none).range.map Span.stop = some header.stop :=
    rfl
  simp [placed, push, layout_append, layout_plain plain, ParserMode.marks, stops]

/-- Leaving a block adds its end. -/
theorem placed_leaveBlock
    {parser : Parser}
    {block : OpenBlock}
    {outer : List OpenBlock}
    (opened : parser.blocks = block :: outer)
    (stop : Position)
    (closed : Bool) :
    (parser.leaveBlock block outer stop closed).placed =
      parser.placed ++
        (Event.close (some ⟨block.opening.start, stop⟩) closed).marks := by
  have opens :
      (block.header.toCommand
        (some
          { commands := parser.commands.reverse
            range := some ⟨block.opening.start, stop⟩
            closed := closed })).block =
        some
          { commands := parser.commands.reverse
            range := some ⟨block.opening.start, stop⟩
            closed := closed } :=
    rfl
  simp [placed, leaveBlock, opened, OpenBlock.marksBefore, layout_append,
    layout_block opens]

/-- Entering a block adds the line of its command, and the parenthesis unless too
many blocks are open. -/
theorem placed_enterBlock
    (parser : Parser)
    (header : Header)
    (opening : Token) :
    (parser.enterBlock header opening).placed.Sublist
      (parser.placed ++ (ParserMode.opened header opening).marks) := by
  unfold enterBlock
  split
  · have added := placed_push (parser.report .nestedTooDeep opening) header
    rw [added]
    refine List.Sublist.append_left ?_ _
    exact (List.Sublist.refl _).append (List.sublist_cons_self _ _)
  · simp [placed, OpenBlock.marksBefore, ParserMode.marks]

/-- A token between commands adds its own marks at most. -/
theorem marks_readIdle
    (parser : Parser)
    {token : Token}
    (proper : token.IsProper) :
    (parser.readIdle token).marks.Sublist (parser.placed ++ token.marks) := by
  cases kind : token.kind with
  | endOfText | newline =>
      simp [readIdle, kind, marks, ParserMode.marks, placed]
  | closing =>
      have inside : token.kind.endsLine = false := by
        simp [kind, TokenKind.endsLine]
      cases opened : parser.blocks with
      | nil =>
          simp [readIdle, kind, opened, marks, ParserMode.marks, placed, report]
      | cons block outer =>
          have left :
              (parser.readIdle token).marks =
                parser.placed ++ [.written (.closing (some token.stop))] := by
            simp only [readIdle, kind, opened, marks, ParserMode.marks,
              List.append_nil]
            exact placed_leaveBlock opened token.stop true
          rw [left, Token.marks_of_inside inside, ← proper.closing kind]
          simp
  | word =>
      have inside : token.kind.endsLine = false := by
        simp [kind, TokenKind.endsLine]
      have begun :
          (ParserMode.header (.ofName token)).marks =
            [.written token.piece, .limit (some token.stop)] :=
        rfl
      simp only [readIdle, kind, marks, begun, Token.marks_of_inside inside]
      exact .refl _
  | _ =>
      simp [readIdle, kind, marks, ParserMode.marks, placed, report]

/-- A token in the line of a command adds its own marks at most, and the command
may end behind it. -/
theorem marks_readHeader
    (parser : Parser)
    (header : Header)
    {token : Token}
    (proper : token.IsProper) :
    (parser.readHeader header token).marks.Sublist
      (parser.placed ++ (ParserMode.header header).marks ++ token.marks) := by
  have finished :
      ((parser.push (header.toCommand none)).readIdle token).marks.Sublist
        (parser.placed ++ (ParserMode.header header).marks ++ token.marks) := by
    rw [← placed_push]
    exact marks_readIdle (parser.push (header.toCommand none)) proper
  -- The place where the command seemed to end makes room for the token.
  have extended
      {added : List Mark}
      (fromToken : added.Sublist token.marks) :
      (parser.placed ++ (header.line.map Mark.written ++ added)).Sublist
        (parser.placed ++ (ParserMode.header header).marks ++ token.marks) := by
    rw [ParserMode.marks, List.append_assoc, List.append_assoc]
    refine List.Sublist.append_left (List.Sublist.append_left ?_ _) _
    exact fromToken.trans (List.sublist_append_right _ _)
  cases kind : token.kind with
  | newline | closing | endOfText =>
      simpa only [readHeader, kind] using finished
  | opening =>
      have inside : token.kind.endsLine = false := by
        simp [kind, TokenKind.endsLine]
      simp only [readHeader, kind]
      apply extended
      rewrite [Token.marks_of_inside inside, proper.opening kind]
      exact .refl _
  | _ =>
      have inside : token.kind.endsLine = false := by
        simp [kind, TokenKind.endsLine]
      have pushed :
          (ParserMode.header (header.push token)).marks =
            header.line.map .written ++
              [.written token.piece, .limit (some token.stop)] := by
        simp [ParserMode.marks, Header.push, Header.line]
      simp only [readHeader, kind, marks, pushed]
      apply extended
      rewrite [Token.marks_of_inside inside]
      exact .refl _

/-- A token adds its own marks at most. -/
theorem marks_step
    (parser : Parser)
    {token : Token}
    (proper : token.IsProper) :
    (parser.step token).marks.Sublist (parser.marks ++ token.marks) := by
  cases mode : parser.mode with
  | idle =>
      simpa [step, marks, mode, ParserMode.marks] using
        marks_readIdle parser proper
  | header header =>
      simpa only [step, marks, mode] using
        marks_readHeader parser header proper
  | opened header opening =>
      have whole :
          parser.marks =
            parser.placed ++ (ParserMode.opened header opening).marks := by
        rw [marks, mode]
      rw [whole]
      simp only [step, mode, readOpened]
      split
      · have entered := placed_enterBlock parser header opening
        have read := marks_readIdle (parser.enterBlock header opening) proper
        exact read.trans (entered.append_right _)
      · -- The parenthesis opens nothing, so its own mark goes.
        have read :=
          marks_readHeader (parser.report .openingInsideLine opening) header
            proper
        refine read.trans (List.Sublist.append_right ?_ _)
        refine List.Sublist.append_left ?_ _
        exact List.Sublist.append_left (List.sublist_cons_self _ _) _
  | skipping =>
      simp only [step, mode]
      split
      · simpa [marks, mode, ParserMode.marks] using marks_readIdle parser proper
      · exact List.sublist_append_left _ _
  | ended =>
      simp only [step, mode]
      exact List.sublist_append_left _ _

theorem marks_foldl
    (parser : Parser)
    {tokens : List Token}
    (proper : ∀ token ∈ tokens, token.IsProper) :
    (tokens.foldl step parser).marks.Sublist
      (parser.marks ++ tokens.flatMap Token.marks) := by
  induction tokens generalizing parser with
  | nil =>
      simp
  | cons token rest inductionHypothesis =>
      rw [List.forall_mem_cons] at proper
      rw [List.foldl_cons, List.flatMap_cons, ← List.append_assoc]
      exact (inductionHypothesis (parser.step token) proper.2).trans
        ((marks_step parser proper.1).append_right _)

/-- The end of the tokens adds nothing for the command that is being read. -/
theorem placed_settle (parser : Parser) :
    parser.settle.placed.Sublist parser.marks := by
  cases mode : parser.mode with
  | idle | skipping | ended =>
      simp [settle, mode, placed, marks, ParserMode.marks]
  | header header =>
      simp only [settle, mode, marks]
      have added := placed_push parser header
      exact added ▸ .refl _
  | opened header opening =>
      simp only [settle, mode, marks]
      exact placed_enterBlock parser header opening

/-- Every block that is never closed ends at the end of the tokens. -/
theorem placed_leaveBlocks
    {parser : Parser}
    {blocks : List OpenBlock}
    (opened : parser.blocks = blocks)
    (stop : Position) :
    (parser.leaveBlocks stop blocks).placed =
        parser.placed ++ List.replicate blocks.length (.limit (some stop)) ∧
      (parser.leaveBlocks stop blocks).blocks = [] := by
  induction blocks generalizing parser with
  | nil =>
      simp [leaveBlocks, opened]
  | cons block outer inductionHypothesis =>
      have stillOpen :
          ((parser.leaveBlock block outer stop false).report
              .unclosedBlock block.opening).blocks = outer :=
        rfl
      obtain ⟨samePlaced, noBlocks⟩ := inductionHypothesis stillOpen
      have left :
          ((parser.leaveBlock block outer stop false).report
              .unclosedBlock block.opening).placed =
            parser.placed ++ [.limit (some stop)] :=
        placed_leaveBlock opened stop false
      refine ⟨?_, noBlocks⟩
      rw [leaveBlocks, samePlaced, left]
      simp [List.replicate_succ]

/-- The layout at the end of the tokens. -/
theorem layout_finish
    (parser : Parser)
    (stop : Position) :
    layout (parser.finish stop).commands.reverse =
      parser.settle.placed ++
        List.replicate parser.settle.blocks.length (.limit (some stop)) := by
  have opened : parser.settle.blocks = parser.settle.blocks :=
    rfl
  obtain ⟨samePlaced, noBlocks⟩ := placed_leaveBlocks opened stop
  rw [← samePlaced]
  simp only [placed, finish, noBlocks, OpenBlock.marksBefore, List.nil_append]

end Parser

/-- The layout of tokens is a part of their marks, in the same order, up to the
ends of the blocks that are never closed. -/
theorem layout_parseTokens
    {tokens : List Token}
    (proper : ∀ token ∈ tokens, token.IsProper) :
    ∃ located count,
      layout (parseTokens tokens).commands =
          located ++ List.replicate count (.limit (some (lastPosition tokens))) ∧
        located.Sublist (tokens.flatMap Token.marks) := by
  refine ⟨_, _, Parser.layout_finish _ (lastPosition tokens), ?_⟩
  exact (Parser.placed_settle _).trans (Parser.marks_foldl .initial proper)

/-- The tokens of a text have parentheses of one character. -/
theorem isProper_of_mem_lex
    {text : String}
    {token : Token}
    (member : token ∈ (lex text).tokens) :
    token.IsProper where
  opening := by
    intro isOpening
    obtain ⟨line, isText⟩ :=
      exists_isTextOf_of_mem_lex member (by rw [isOpening]; rfl)
    have width := isText.stopColumn_eq
    rw [isText.opening isOpening] at width
    rw [Token.piece, isText.opening isOpening, Token.span, Token.stop, width]
    rfl
  closing := by
    intro isClosing
    obtain ⟨line, isText⟩ :=
      exists_isTextOf_of_mem_lex member (by rw [isClosing]; rfl)
    have width := isText.stopColumn_eq
    rw [isText.closing isClosing] at width
    rw [Token.piece, isText.closing isClosing, Token.span, Token.stop, width]
    rfl

/-- The tokens that do not end a line. -/
def Lexing.inside (lexing : Lexing) : List Token :=
  lexing.tokens.filter fun token => !token.kind.endsLine

theorem filterMap_marks_tokens (tokens : List Token) :
    (tokens.flatMap Token.marks).filterMap Mark.piece? =
      (tokens.filter fun token => !token.kind.endsLine).map Token.piece := by
  induction tokens with
  | nil =>
      rfl
  | cons token rest inductionHypothesis =>
      cases ends : token.kind.endsLine <;>
        simp [Token.marks, ends, List.filterMap_cons, Mark.piece?,
          inductionHypothesis]

/-- The traversal of a tree is a part of the tokens, in the same order. -/
theorem traversal_sublist_lex (text : String) :
    (traversal (parse text).commands).Sublist
      ((lex text).inside.map Token.piece) := by
  unfold parse
  split
  · exact List.nil_sublist _
  · obtain ⟨located, count, shape, fromTokens⟩ :=
      layout_parseTokens fun token (member : token ∈ (lex text).tokens) =>
        isProper_of_mem_lex member
    have noPieces :
        (List.replicate count
          (Mark.limit (some (lastPosition (lex text).tokens)))).filterMap
            Mark.piece? = [] := by
      simp [List.filterMap_replicate, Mark.piece?]
    have written := fromTokens.filterMap Mark.piece?
    rw [filterMap_marks_tokens] at written
    rw [← filterMap_layout, shape, List.filterMap_append, noPieces,
      List.append_nil]
    exact written

end ScriptCompletion.Script
