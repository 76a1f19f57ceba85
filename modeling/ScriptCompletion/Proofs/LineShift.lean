import ScriptCompletion.Proofs.LineLexing
import ScriptCompletion.Script.Parser

namespace ScriptCompletion

/-!
# Lines further down

The lexer and the parser compare line numbers with nothing: they only copy them.
So lines that stand further down in a text are read as they are read on their own,
with every line number raised.

The parser does not look at the commands that stand before the line, either.  A
parser that begins where no block is open puts its commands behind those and
touches none of them.
-/

/-- Move a position down by so many lines. -/
def Position.shift
    (lines : Nat)
    (position : Position) : Position :=
  { position with line := position.line + lines }

/-- Move a stretch of text down by so many lines. -/
def Span.shift
    (lines : Nat)
    (span : Span) : Span :=
  ⟨span.start.shift lines, span.stop.shift lines⟩

namespace Script

def Token.shift
    (lines : Nat)
    (token : Token) : Token :=
  { token with line := token.line + lines }

def Problem.shift
    (lines : Nat)
    (problem : Problem) : Problem :=
  { problem with position := problem.position.shift lines }

def Argument.shift
    (lines : Nat)
    (argument : Argument) : Argument :=
  { argument with range := argument.range.map (Span.shift lines) }

mutual

/-- Move a command with its block down by so many lines. -/
def Command.shift
    (lines : Nat)
    (command : Command) : Command :=
  match command with
  | ⟨qualifier, name, arguments, range, nameRange, none⟩ =>
      { qualifier := qualifier
        name := name
        arguments := arguments.map (Argument.shift lines)
        range := range.map (Span.shift lines)
        nameRange := nameRange.map (Span.shift lines)
        block := none }
  | ⟨qualifier, name, arguments, range, nameRange,
      some ⟨commands, blockRange, closed⟩⟩ =>
      { qualifier := qualifier
        name := name
        arguments := arguments.map (Argument.shift lines)
        range := range.map (Span.shift lines)
        nameRange := nameRange.map (Span.shift lines)
        block :=
          some
            { commands := shiftAll lines commands
              range := blockRange.map (Span.shift lines)
              closed := closed } }

/-- Move commands down by so many lines. -/
def shiftAll
    (lines : Nat)
    (commands : List Command) : List Command :=
  match commands with
  | [] =>
      []
  | command :: rest =>
      command.shift lines :: shiftAll lines rest

end

theorem shiftAll_eq_map
    (lines : Nat)
    (commands : List Command) :
    shiftAll lines commands = commands.map (Command.shift lines) := by
  induction commands with
  | nil =>
      rw [shiftAll, List.map_nil]
  | cons command rest inductionHypothesis =>
      rw [shiftAll, inductionHypothesis, List.map_cons]

/-!
## The lexer
-/

def Lexing.shift
    (lines : Nat)
    (lexing : Lexing) : Lexing where
  tokens := lexing.tokens.map (Token.shift lines)
  problems := lexing.problems.map (Problem.shift lines)

namespace Lexer

/-- The lexer with its line and its records further down. -/
def shift
    (lines : Nat)
    (lexer : Lexer) : Lexer :=
  { lexer with
    line := lexer.line + lines
    tokens := lexer.tokens.map (Token.shift lines)
    problems := lexer.problems.map (Problem.shift lines) }

variable (lines : Nat) (lexer : Lexer)

theorem emit_shift
    (kind : TokenKind)
    (text : List Char)
    (start stop : Nat) :
    (lexer.shift lines).emit kind text start stop =
      (lexer.emit kind text start stop).shift lines :=
  rfl

theorem report_shift
    (cause : Option Cause)
    (column : Nat) :
    (lexer.shift lines).report cause column =
      (lexer.report cause column).shift lines := by
  cases cause <;> rfl

theorem interrupt_shift :
    (lexer.shift lines).interrupt = lexer.interrupt.shift lines := by
  have sameMode : (lexer.shift lines).mode = lexer.mode := rfl
  have sameColumn : (lexer.shift lines).column = lexer.column := rfl
  unfold interrupt
  rw [sameMode, sameColumn]
  cases lexer.mode with
  | idle | comment =>
      rfl
  | reading lexeme start text =>
      simp only [emit_shift, report_shift]
      rfl

theorem start_shift (character : Char) :
    (lexer.shift lines).start character =
      (lexer.start character).shift lines := by
  unfold start
  simp only [apply_ite (Lexer.shift lines)]
  rfl

/-- Reading a character does not depend on the number of the line. -/
theorem advance_shift (character : Char) :
    (lexer.shift lines).advance character =
      (lexer.advance character).shift lines := by
  have sameMode : (lexer.shift lines).mode = lexer.mode := rfl
  unfold advance
  rw [sameMode]
  cases lexer.mode with
  | idle =>
      exact start_shift lines lexer character
  | comment =>
      rfl
  | reading lexeme start text =>
      cases received : lexeme.receive character with
      | extended next =>
          simp only [received]
          rfl
      | completed =>
          simp only [received]
          rfl
      | refused =>
          simp only [received, interrupt_shift, start_shift]

theorem foldl_advance_shift (line : List Char) :
    line.foldl advance (lexer.shift lines) =
      (line.foldl advance lexer).shift lines := by
  induction line generalizing lexer with
  | nil =>
      rfl
  | cons character rest inductionHypothesis =>
      rw [List.foldl_cons, advance_shift, inductionHypothesis,
        List.foldl_cons]

end Lexer

/-- A line is read alike wherever it stands. -/
theorem lexLine_shift
    (lines number : Nat)
    (line : List Char) :
    lexLine (number + lines) line = (lexLine number line).shift lines := by
  have sameStart :
      Lexer.onLine (number + lines) = (Lexer.onLine number).shift lines :=
    rfl
  rw [lexLine, sameStart, Lexer.foldl_advance_shift, Lexer.interrupt_shift]
  simp only [lexLine, Lexing.shift, Lexer.shift, List.map_reverse]

/-- Lines are read alike wherever they stand. -/
theorem lexLines_shift
    (lines number : Nat)
    (line : List Char)
    (later : List (List Char)) :
    lexLines (number + lines) line later =
      (lexLines number line later).shift lines := by
  induction later generalizing number line with
  | nil =>
      simp only [lexLines, lexLine_shift, Lexing.shift, List.map_append,
        List.map_cons, List.map_nil]
      rfl
  | cons next rest inductionHypothesis =>
      have nextNumber : number + lines + 1 = number + 1 + lines := by
        omega
      simp only [lexLines, lexLine_shift, nextNumber, inductionHypothesis,
        Lexing.shift, List.map_append, List.map_cons]
      rfl

/-!
## The parser
-/

namespace Header

def shift
    (lines : Nat)
    (header : Header) : Header where
  name := header.name.shift lines
  arguments := header.arguments.map (Argument.shift lines)
  stop := header.stop.shift lines

theorem toCommand_shift
    (lines : Nat)
    (header : Header) :
    (header.shift lines).toCommand none =
      (header.toCommand none).shift lines := by
  simp only [toCommand, shift, Command.shift, List.map_reverse]
  rfl

/-- A command is moved down with the commands of its block. -/
theorem toCommand_block_shift
    (lines : Nat)
    (header : Header)
    (commands : List Command)
    (start stop : Position)
    (closed : Bool) :
    (header.shift lines).toCommand
        (some
          { commands := commands.map (Command.shift lines)
            range := some ⟨start.shift lines, stop.shift lines⟩
            closed := closed }) =
      (header.toCommand
        (some
          { commands := commands
            range := some ⟨start, stop⟩
            closed := closed })).shift lines := by
  simp only [toCommand, shift, Command.shift, List.map_reverse,
    shiftAll_eq_map]
  rfl

end Header

def ParserMode.shift
    (lines : Nat) : ParserMode → ParserMode
  | .idle =>
      .idle
  | .header current =>
      .header (current.shift lines)
  | .opened current opening =>
      .opened (current.shift lines) (opening.shift lines)
  | .skipping =>
      .skipping
  | .ended =>
      .ended

/-- Put commands behind earlier ones, both latest first, unless they are inside one
of the given open blocks. -/
def placeBehind
    (earlier : List Command)
    (outer : List OpenBlock)
    (commands : List Command) : List Command :=
  match outer with
  | [] =>
      commands ++ earlier
  | _ :: _ =>
      commands

theorem placeBehind_inside
    (earlier : List Command)
    (block : OpenBlock)
    (outer : List OpenBlock)
    (commands : List Command) :
    placeBehind earlier (block :: outer) commands = commands :=
  rfl

theorem placeBehind_cons
    (earlier : List Command)
    (outer : List OpenBlock)
    (command : Command)
    (commands : List Command) :
    placeBehind earlier outer (command :: commands) =
      command :: placeBehind earlier outer commands := by
  cases outer <;> rfl

namespace OpenBlock

/-- Move an open block down by so many lines, with earlier commands before it if it
is the outermost one. -/
def behind
    (earlier : List Command)
    (lines : Nat)
    (block : OpenBlock)
    (outer : List OpenBlock) : OpenBlock where
  header := block.header.shift lines
  opening := block.opening.shift lines
  earlier :=
    placeBehind earlier outer (block.earlier.map (Command.shift lines))

/-- Move open blocks down by so many lines, with earlier commands before the
outermost one. -/
def behindAll
    (earlier : List Command)
    (lines : Nat) : List OpenBlock → List OpenBlock
  | [] =>
      []
  | block :: outer =>
      block.behind earlier lines outer :: behindAll earlier lines outer

theorem length_behindAll
    (earlier : List Command)
    (lines : Nat)
    (blocks : List OpenBlock) :
    (behindAll earlier lines blocks).length = blocks.length := by
  induction blocks with
  | nil =>
      rfl
  | cons block outer inductionHypothesis =>
      simp [behindAll, inductionHypothesis]

end OpenBlock

namespace Parser

/-- The parser so many lines further down, with the records of an earlier one that
has no open block below its own. -/
def behind
    (parser : Parser)
    (earlier : Parser)
    (lines : Nat) : Parser where
  mode := parser.mode.shift lines
  blocks := OpenBlock.behindAll earlier.commands lines parser.blocks
  commands :=
    placeBehind earlier.commands parser.blocks
      (parser.commands.map (Command.shift lines))
  problems := parser.problems.map (Problem.shift lines) ++ earlier.problems

variable (parser earlier : Parser) (lines : Nat)

theorem report_behind
    (cause : Cause)
    (token : Token) :
    (parser.behind earlier lines).report cause (token.shift lines) =
      (parser.report cause token).behind earlier lines :=
  rfl

theorem push_behind (command : Command) :
    (parser.behind earlier lines).push (command.shift lines) =
      (parser.push command).behind earlier lines := by
  simp only [push, behind, List.map_cons, placeBehind_cons]

theorem leaveBlock_behind
    {parser : Parser}
    {block : OpenBlock}
    {outer : List OpenBlock}
    (opened : parser.blocks = block :: outer)
    (stop : Position)
    (closed : Bool) :
    (parser.behind earlier lines).leaveBlock
        (block.behind earlier.commands lines outer)
        (OpenBlock.behindAll earlier.commands lines outer)
        (stop.shift lines) closed =
      (parser.leaveBlock block outer stop closed).behind earlier lines := by
  have command :=
    block.header.toCommand_block_shift lines parser.commands.reverse
      block.opening.start stop closed
  rw [List.map_reverse] at command
  simp only [leaveBlock, behind, opened, placeBehind_inside, List.map_cons,
    placeBehind_cons]
  rw [← command]
  rfl

theorem enterBlock_behind
    (header : Header)
    (opening : Token) :
    (parser.behind earlier lines).enterBlock (header.shift lines)
        (opening.shift lines) =
      (parser.enterBlock header opening).behind earlier lines := by
  have sameDepth :
      (parser.behind earlier lines).blocks.length = parser.blocks.length :=
    OpenBlock.length_behindAll ..
  unfold enterBlock
  rw [sameDepth]
  split
  · rw [report_behind, Header.toCommand_shift, push_behind]
  · rfl

/-- Between commands a token is read alike behind earlier lines. -/
theorem readIdle_behind (token : Token) :
    (parser.behind earlier lines).readIdle (token.shift lines) =
      (parser.readIdle token).behind earlier lines := by
  have sameKind : (token.shift lines).kind = token.kind := rfl
  cases kind : token.kind with
  | closing =>
      cases opened : parser.blocks with
      | nil =>
          have noneOpened : (parser.behind earlier lines).blocks = [] := by
            simp [behind, opened, OpenBlock.behindAll]
          simp only [readIdle, sameKind, kind, noneOpened, opened,
            report_behind]
          rfl
      | cons block outer =>
          have left := leaveBlock_behind earlier lines opened token.stop true
          have isOpened :
              (parser.behind earlier lines).blocks =
                block.behind earlier.commands lines outer ::
                  OpenBlock.behindAll earlier.commands lines outer := by
            rw [behind, opened, OpenBlock.behindAll]
          have sameStop : (token.shift lines).stop = token.stop.shift lines :=
            rfl
          simp only [readIdle, sameKind, kind, isOpened, opened, sameStop, left]
          rfl
  | _ =>
      simp only [readIdle, sameKind, kind]
      rfl

theorem readHeader_behind
    (header : Header)
    (token : Token) :
    (parser.behind earlier lines).readHeader (header.shift lines)
        (token.shift lines) =
      (parser.readHeader header token).behind earlier lines := by
  have sameKind : (token.shift lines).kind = token.kind := rfl
  have finished :=
    readIdle_behind (parser.push (header.toCommand none)) earlier lines token
  rw [← push_behind, ← Header.toCommand_shift] at finished
  cases kind : token.kind with
  | newline | closing | endOfText =>
      simpa only [readHeader, sameKind, kind] using finished
  | _ =>
      simp only [readHeader, sameKind, kind]
      rfl

/-- A token is read alike behind earlier lines. -/
theorem step_behind (token : Token) :
    (parser.behind earlier lines).step (token.shift lines) =
      (parser.step token).behind earlier lines := by
  have sameKind : (token.shift lines).kind = token.kind := rfl
  have sameMode :
      (parser.behind earlier lines).mode = parser.mode.shift lines :=
    rfl
  unfold step
  rw [sameMode]
  cases parser.mode with
  | idle =>
      exact readIdle_behind parser earlier lines token
  | header header =>
      exact readHeader_behind parser earlier lines header token
  | opened header opening =>
      simp only [ParserMode.shift, readOpened, sameKind]
      split
      · rw [enterBlock_behind, readIdle_behind]
      · rw [report_behind, readHeader_behind]
  | skipping =>
      simp only [ParserMode.shift, sameKind]
      split
      · exact readIdle_behind parser earlier lines token
      · rfl
  | ended =>
      rfl

theorem foldl_behind (tokens : List Token) :
    (tokens.map (Token.shift lines)).foldl step
        (parser.behind earlier lines) =
      (tokens.foldl step parser).behind earlier lines := by
  induction tokens generalizing parser with
  | nil =>
      rfl
  | cons token rest inductionHypothesis =>
      rw [List.map_cons, List.foldl_cons, step_behind, inductionHypothesis,
        List.foldl_cons]

theorem settle_behind :
    (parser.behind earlier lines).settle =
      parser.settle.behind earlier lines := by
  have sameMode :
      (parser.behind earlier lines).mode = parser.mode.shift lines :=
    rfl
  unfold settle
  rw [sameMode]
  cases parser.mode with
  | idle | skipping | ended =>
      rfl
  | header header =>
      simp only [ParserMode.shift]
      rw [Header.toCommand_shift, push_behind]
      rfl
  | opened header opening =>
      simp only [ParserMode.shift]
      rw [enterBlock_behind]
      rfl

theorem leaveBlocks_behind
    {parser : Parser}
    {blocks : List OpenBlock}
    (opened : parser.blocks = blocks)
    (stop : Position) :
    (parser.behind earlier lines).leaveBlocks (stop.shift lines)
        (OpenBlock.behindAll earlier.commands lines blocks) =
      (parser.leaveBlocks stop blocks).behind earlier lines := by
  induction blocks generalizing parser with
  | nil =>
      rfl
  | cons block outer inductionHypothesis =>
      have left := leaveBlock_behind earlier lines opened stop false
      have sameOpening :
          (block.behind earlier.commands lines outer).opening =
            block.opening.shift lines :=
        rfl
      simp only [OpenBlock.behindAll, leaveBlocks, left, sameOpening]
      rw [report_behind]
      exact inductionHypothesis rfl

/-- The end of the tokens is reached alike behind earlier lines. -/
theorem finish_behind (stop : Position) :
    (parser.behind earlier lines).finish (stop.shift lines) =
      (parser.finish stop).behind earlier lines := by
  unfold finish
  rw [settle_behind]
  exact leaveBlocks_behind earlier lines rfl stop

end Parser

end Script

end ScriptCompletion
