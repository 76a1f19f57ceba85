import ScriptCompletion.Text.Position

namespace ScriptCompletion.Script

/-!
# Tokens

A token stands on one line, so a line and two columns locate it.
-/

/-- What a token is. -/
inductive TokenKind where
  /-- The end of the text. -/
  | endOfText
  /-- A line feed. -/
  | newline
  /-- An opening parenthesis. -/
  | opening
  /-- A closing parenthesis. -/
  | closing
  /-- A bare word, possibly with a module in front of a colon. -/
  | word
  /-- A word that starts with a dollar sign. -/
  | variable
  /-- A word that starts with an at sign, with its call arguments. -/
  | helper
  /-- A text in single or double quotes. -/
  | string
  /-- A text in square brackets. -/
  | array
deriving Repr, DecidableEq

/-- The tokens that can be arguments of a command. -/
def TokenKind.isArgument : TokenKind → Bool
  | .word | .variable | .helper | .string | .array =>
      true
  | .endOfText | .newline | .opening | .closing =>
      false

/-- The tokens that end a line. -/
def TokenKind.endsLine : TokenKind → Bool
  | .newline | .endOfText =>
      true
  | _ =>
      false

/-- A piece of a line and where it stands. -/
structure Token where
  kind : TokenKind
  value : String
  line : Nat
  column : Nat
  stopColumn : Nat
deriving Repr, DecidableEq

namespace Token

/-- Where the token starts. -/
def start (token : Token) : Position :=
  ⟨token.line, token.column⟩

/-- The first position after the token. -/
def stop (token : Token) : Position :=
  ⟨token.line, token.stopColumn⟩

/-- The stretch of text that the token covers. -/
def span (token : Token) : Span :=
  ⟨token.start, token.stop⟩

end Token

end ScriptCompletion.Script
