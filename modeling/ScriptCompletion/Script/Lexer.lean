import ScriptCompletion.Script.Problem
import ScriptCompletion.Script.Token
import ScriptCompletion.Text.Whitespace

namespace ScriptCompletion.Script

/-!
# Lexing

The lexer is an automaton that takes one character at a time.  Between lexemes
it skips whitespace, a `#` there starts a comment, and any other character
starts a lexeme.  A line feed ends whatever is being read, so no line can
change how another line is read.

A lexeme that ends too early still becomes a token, and the problem is recorded
at the position where the lexeme started.
-/

/-- The characters that end a bare word. -/
def isWordBoundary (character : Char) : Bool :=
  Text.isWhitespace character ||
    character == '(' ||
    character == ')' ||
    character == '"' ||
    character == '\''

/-- The characters that open and close a quoted run. -/
def isQuote (character : Char) : Bool :=
  character == '"' || character == '\''

/-- Whether the reader stands inside a quoted run. -/
inductive Quoting where
  | outside
  | inside (quote : Char)
  /-- Behind a backslash, which takes the next character with it. -/
  | escaped (quote : Char)
deriving Repr, DecidableEq

/-- Read one character of a quoted run. -/
def Quoting.advance
    (quoting : Quoting)
    (character : Char) : Quoting :=
  match quoting with
  | .outside =>
      .outside
  | .inside quote =>
      if character = '\\' then
        .escaped quote
      else if character = quote then
        .outside
      else
        .inside quote
  | .escaped quote =>
      .inside quote

/-- How many brackets are open, and whether the reader is inside quotes. -/
structure Nesting where
  depth : Nat
  quoting : Quoting
deriving Repr, DecidableEq

/-- Read one character of a bracketed text.  Brackets inside quotes are text. -/
def Nesting.advance
    (openingBracket : Char)
    (closingBracket : Char)
    (nesting : Nesting)
    (character : Char) : Nesting :=
  match nesting.quoting with
  | .outside =>
      if isQuote character then
        { nesting with quoting := .inside character }
      else if character = openingBracket then
        { nesting with depth := nesting.depth + 1 }
      else if character = closingBracket then
        { nesting with depth := nesting.depth - 1 }
      else
        nesting
  | quoting =>
      { nesting with quoting := quoting.advance character }

/-- The lexeme that is being read. -/
inductive Lexeme where
  | word
  | variable
  | helper (nesting : Nesting)
  | string (quote : Char) (quoting : Quoting)
  | array (nesting : Nesting)
deriving Repr, DecidableEq

namespace Lexeme

/-- The kind of token that the lexeme becomes. -/
def kind : Lexeme → TokenKind
  | .word =>
      .word
  | .variable =>
      .variable
  | .helper _ =>
      .helper
  | .string _ _ =>
      .string
  | .array _ =>
      .array

/-- What is wrong when the lexeme ends where it stands now. -/
def interruption : Lexeme → Option Cause
  | .word | .variable =>
      none
  | .helper nesting =>
      if nesting.depth = 0 then
        none
      else
        some .unclosedHelperCall
  | .string quote _ =>
      some (.unterminatedString quote)
  | .array _ =>
      some .unclosedArray

/-- What a lexeme makes of the next character of its line. -/
inductive Reception where
  /-- The character belongs to the lexeme, and more may follow. -/
  | extended (lexeme : Lexeme)
  /-- The character belongs to the lexeme and is its last one. -/
  | completed
  /-- The lexeme ended before the character. -/
  | refused
deriving Repr, DecidableEq

/-- Offer the next character of the line to a lexeme. -/
def receive
    (lexeme : Lexeme)
    (character : Char) : Reception :=
  match lexeme with
  | .word | .variable =>
      if isWordBoundary character then
        .refused
      else
        .extended lexeme
  | .helper nesting =>
      if nesting.depth = 0 ∧ character ≠ '(' ∧ isWordBoundary character then
        .refused
      else
        .extended (.helper (nesting.advance '(' ')' character))
  | .string quote quoting =>
      match quoting.advance character with
      | .outside =>
          .completed
      | next =>
          .extended (.string quote next)
  | .array nesting =>
      let next := nesting.advance '[' ']' character
      if next.depth = 0 then
        .completed
      else
        .extended (.array next)

/-- The lexeme that a character starts, if it is not a token of its own. -/
def startedBy (character : Char) : Lexeme :=
  if isQuote character then
    .string character (.inside character)
  else if character = '[' then
    .array ⟨1, .outside⟩
  else if character = '@' then
    .helper ⟨0, .outside⟩
  else if character = '$' then
    .variable
  else
    .word

end Lexeme

/-- What the lexer is doing on the current line. -/
inductive LexerMode where
  /-- Between lexemes. -/
  | idle
  /-- Behind a `#`, up to the end of the line. -/
  | comment
  /-- Inside a lexeme that started at a column; its text is kept in reverse. -/
  | reading (lexeme : Lexeme) (start : Nat) (text : List Char)
deriving Repr, DecidableEq

/-- The lexer after some characters.  Tokens and problems are latest first. -/
structure Lexer where
  line : Nat
  column : Nat
  mode : LexerMode
  tokens : List Token
  problems : List Problem
deriving Repr, DecidableEq

namespace Lexer

/-- The lexer before the first character. -/
def initial : Lexer where
  line := 0
  column := 0
  mode := .idle
  tokens := []
  problems := []

/-- Record a token of the current line that ends at the given column. -/
def emit
    (lexer : Lexer)
    (kind : TokenKind)
    (text : List Char)
    (start : Nat)
    (stop : Nat) : Lexer :=
  { lexer with
    tokens :=
      { kind := kind
        value := String.ofList text
        line := lexer.line
        column := start
        stopColumn := stop } :: lexer.tokens }

/-- Record a problem on the current line. -/
def report
    (lexer : Lexer)
    (cause : Option Cause)
    (column : Nat) : Lexer :=
  match cause with
  | none =>
      lexer
  | some cause =>
      { lexer with
        problems := ⟨cause, ⟨lexer.line, column⟩⟩ :: lexer.problems }

/-- End the lexeme that is being read, if any, in front of the current column. -/
def interrupt (lexer : Lexer) : Lexer :=
  match lexer.mode with
  | .idle | .comment =>
      { lexer with mode := .idle }
  | .reading lexeme start text =>
      { (lexer.emit lexeme.kind text.reverse start lexer.column).report
          lexeme.interruption start with
        mode := .idle }

/-- Read a character between lexemes. -/
def start
    (lexer : Lexer)
    (character : Char) : Lexer :=
  let next := lexer.column + 1
  if Text.isWhitespace character then
    { lexer with column := next }
  else if character = '#' then
    { lexer with column := next, mode := .comment }
  else if character = '(' then
    { lexer.emit .opening [character] lexer.column next with column := next }
  else if character = ')' then
    { lexer.emit .closing [character] lexer.column next with column := next }
  else
    { lexer with
      column := next
      mode := .reading (.startedBy character) lexer.column [character] }

/-- Read a character that is not a line feed. -/
def advance
    (lexer : Lexer)
    (character : Char) : Lexer :=
  let next := lexer.column + 1
  match lexer.mode with
  | .idle =>
      lexer.start character
  | .comment =>
      { lexer with column := next }
  | .reading lexeme start text =>
      match lexeme.receive character with
      | .extended lexeme =>
          { lexer with
            column := next
            mode := .reading lexeme start (character :: text) }
      | .completed =>
          { lexer.emit lexeme.kind (character :: text).reverse start next with
            column := next
            mode := .idle }
      | .refused =>
          lexer.interrupt.start character

/-- Read a line feed: the line ends, and the next one starts afresh. -/
def breakLine (lexer : Lexer) : Lexer :=
  let ended := lexer.interrupt
  { ended.emit .newline ['\n'] ended.column (ended.column + 1) with
    line := ended.line + 1
    column := 0 }

/-- Read one character. -/
def step
    (lexer : Lexer)
    (character : Char) : Lexer :=
  if character = '\n' then
    lexer.breakLine
  else
    lexer.advance character

/-- Reach the end of the text. -/
def finish (lexer : Lexer) : Lexer :=
  let ended := lexer.interrupt
  ended.emit .endOfText [] ended.column ended.column

end Lexer

/-- The tokens of a text and the problems met while reading them, in order. -/
structure Lexing where
  tokens : List Token
  problems : List Problem
deriving Repr, DecidableEq

/-- Split a text into tokens; the last one is the end of the text. -/
def lex (text : String) : Lexing :=
  let lexer := (text.toList.foldl Lexer.step Lexer.initial).finish
  { tokens := lexer.tokens.reverse
    problems := lexer.problems.reverse }

end ScriptCompletion.Script
