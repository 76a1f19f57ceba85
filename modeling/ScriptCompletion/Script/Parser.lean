import ScriptCompletion.Script.Lexer
import ScriptCompletion.Script.Tree

namespace ScriptCompletion.Script

/-!
# Parsing

The parser is an automaton over tokens.  It keeps the blocks that are open, the
commands of the innermost one, and what it is in the middle of:

```text
script   ::= (command | NEWLINE)*
command  ::= WORD argument* ['(' NEWLINE script ')']
argument ::= WORD | VARIABLE | HELPER | STRING | ARRAY
```

Whatever does not fit is recorded as a problem and passed over.
-/

/-- Split a written name at its first colon; a leading colon splits nothing. -/
def splitQualifier (written : String) : Option String × String :=
  let characters := written.toList
  match characters.takeWhile (· ≠ ':'), characters.dropWhile (· ≠ ':') with
  | first :: rest, _ :: name =>
      (some (String.ofList (first :: rest)), String.ofList name)
  | _, _ =>
      (none, written)

/-- The kind of argument that a token is. -/
def TokenKind.argumentKind : TokenKind → ArgumentKind
  | .variable =>
      .variable
  | .helper =>
      .helper
  | .string =>
      .string
  | .array =>
      .array
  | .word | .opening | .closing | .newline | .endOfText =>
      .literal

/-- The argument that a token is. -/
def Argument.ofToken (token : Token) : Argument where
  kind := token.kind.argumentKind
  raw := token.value
  range := some token.span

/-- A command up to the end of its line.  Arguments are latest first. -/
structure Header where
  name : Token
  arguments : List Argument
  stop : Position
deriving Repr, DecidableEq

namespace Header

/-- A command of which only the name was read. -/
def ofName (name : Token) : Header where
  name := name
  arguments := []
  stop := name.stop

/-- Add an argument. -/
def push
    (header : Header)
    (token : Token) : Header :=
  { header with
    arguments := Argument.ofToken token :: header.arguments
    stop := token.stop }

/-- The command with this header and the given block. -/
def toCommand
    (header : Header)
    (block : Option (Block Command)) : Command :=
  let (qualifier, name) := splitQualifier header.name.value
  let stop :=
    match block.bind Block.range with
    | none =>
        header.stop
    | some range =>
        range.stop
  { qualifier := qualifier
    name := name
    arguments := header.arguments.reverse
    range := some ⟨header.name.start, stop⟩
    nameRange := some header.name.span
    block := block }

end Header

/-- A block whose closing parenthesis has not been read. -/
structure OpenBlock where
  /-- The command that opened it. -/
  header : Header
  /-- Its opening parenthesis. -/
  opening : Token
  /-- The commands before the one that opened it, latest first. -/
  earlier : List Command
deriving Repr

/-- What the parser is in the middle of. -/
inductive ParserMode where
  /-- Between commands. -/
  | idle
  /-- In the line of a command. -/
  | header (header : Header)
  /-- Behind an opening parenthesis in the line of a command. -/
  | opened (header : Header) (opening : Token)
  /-- Behind a token that cannot start a command, up to the end of the line. -/
  | skipping
  /-- Behind the end of the text. -/
  | ended
deriving Repr, DecidableEq

/-- The parser after some tokens.  Blocks are innermost first; commands and
problems are latest first. -/
structure Parser where
  mode : ParserMode
  blocks : List OpenBlock
  commands : List Command
  problems : List Problem
deriving Repr

namespace Parser

/-- The parser before the first token. -/
def initial : Parser where
  mode := .idle
  blocks := []
  commands := []
  problems := []

/-- Record a problem at a token. -/
def report
    (parser : Parser)
    (cause : Cause)
    (token : Token) : Parser :=
  { parser with problems := ⟨cause, token.start⟩ :: parser.problems }

/-- Add a command to the innermost block. -/
def push
    (parser : Parser)
    (command : Command) : Parser :=
  { parser with commands := command :: parser.commands }

/-- End the innermost block at the given position. -/
def leaveBlock
    (parser : Parser)
    (block : OpenBlock)
    (outer : List OpenBlock)
    (stop : Position)
    (closed : Bool) : Parser :=
  { parser with
    blocks := outer
    commands :=
      block.header.toCommand
        (some
          { commands := parser.commands.reverse
            range := some ⟨block.opening.start, stop⟩
            closed := closed }) :: block.earlier }

/-- Read a token between commands. -/
def readIdle
    (parser : Parser)
    (token : Token) : Parser :=
  match token.kind with
  | .endOfText =>
      { parser with mode := .ended }
  | .newline =>
      { parser with mode := .idle }
  | .closing =>
      match parser.blocks with
      | [] =>
          { parser.report .unexpectedClosing token with mode := .idle }
      | block :: outer =>
          { parser.leaveBlock block outer token.stop true with mode := .idle }
  | .word =>
      { parser with mode := .header (.ofName token) }
  | .opening | .variable | .helper | .string | .array =>
      { parser.report (.expectedCommandName token.value) token with
        mode := .skipping }

/-- Read a token in the line of a command. -/
def readHeader
    (parser : Parser)
    (header : Header)
    (token : Token) : Parser :=
  match token.kind with
  | .word | .variable | .helper | .string | .array =>
      { parser with mode := .header (header.push token) }
  | .opening =>
      { parser with mode := .opened { header with stop := token.stop } token }
  | .newline | .closing | .endOfText =>
      (parser.push (header.toCommand none)).readIdle token

/-- Open a block, unless too many are open. -/
def enterBlock
    (parser : Parser)
    (header : Header)
    (opening : Token) : Parser :=
  if maxBlockDepth ≤ parser.blocks.length then
    (parser.report .nestedTooDeep opening).push (header.toCommand none)
  else
    { parser with
      blocks := ⟨header, opening, parser.commands⟩ :: parser.blocks
      commands := [] }

/-- Read the token behind an opening parenthesis. -/
def readOpened
    (parser : Parser)
    (header : Header)
    (opening : Token)
    (token : Token) : Parser :=
  if token.kind.endsLine then
    (parser.enterBlock header opening).readIdle token
  else
    (parser.report .openingInsideLine opening).readHeader header token

/-- Read one token. -/
def step
    (parser : Parser)
    (token : Token) : Parser :=
  match parser.mode with
  | .idle =>
      parser.readIdle token
  | .header header =>
      parser.readHeader header token
  | .opened header opening =>
      parser.readOpened header opening token
  | .skipping =>
      if token.kind.endsLine then
        parser.readIdle token
      else
        parser
  | .ended =>
      parser

/-- Finish the command that is being read, at the end of the tokens. -/
def settle (parser : Parser) : Parser :=
  match parser.mode with
  | .idle | .skipping | .ended =>
      { parser with mode := .ended }
  | .header header =>
      { parser.push (header.toCommand none) with mode := .ended }
  | .opened header opening =>
      { parser.enterBlock header opening with mode := .ended }

/-- End the given open blocks, innermost first, all at one position. -/
def leaveBlocks
    (parser : Parser)
    (stop : Position) : List OpenBlock → Parser
  | [] =>
      parser
  | block :: outer =>
      ((parser.leaveBlock block outer stop false).report
        .unclosedBlock block.opening).leaveBlocks stop outer

/-- Reach the end of the tokens, which leaves no block open. -/
def finish
    (parser : Parser)
    (stop : Position) : Parser :=
  let settled := parser.settle
  settled.leaveBlocks stop settled.blocks

end Parser

/-- Where the last token stands; the start of the text when there is none. -/
def lastPosition (tokens : List Token) : Position :=
  match tokens.getLast? with
  | none =>
      ⟨0, 0⟩
  | some token =>
      token.start

/-- The commands of a script and everything that is wrong with it. -/
structure Parsing where
  commands : List Command
  problems : List Problem
deriving Repr

/-- Whether nothing is wrong. -/
def Parsing.isClean (parsing : Parsing) : Bool :=
  parsing.problems.isEmpty

/-- The commands that a list of tokens makes, with the problems in the order
in which they were met. -/
def parseTokens (tokens : List Token) : Parsing :=
  let parser :=
    (tokens.foldl Parser.step Parser.initial).finish (lastPosition tokens)
  { commands := parser.commands.reverse
    problems := parser.problems.reverse }

/-- Read a script.  Problems are ordered by position, and at one position those
of its characters come before those of its tokens. -/
def parse (text : String) : Parsing :=
  if maxBytes < text.utf8ByteSize then
    { commands := []
      problems := [⟨.inputTooLarge text.utf8ByteSize, ⟨0, 0⟩⟩] }
  else
    let lexing := lex text
    let parsing := parseTokens lexing.tokens
    { commands := parsing.commands
      problems := sortProblems (lexing.problems ++ parsing.problems) }

end ScriptCompletion.Script
