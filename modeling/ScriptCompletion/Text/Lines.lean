namespace ScriptCompletion.Text

/-!
# Lines of a text

A text has one line more than it has line feeds, so the empty text has one
empty line.  The lines are kept as a first line and the lines after it.
-/

/-- The characters of the first line, and those of every later line. -/
structure Lines where
  first : List Char
  later : List (List Char)
deriving Repr, DecidableEq

namespace Lines

/-- Put one character in front of the text. -/
def push
    (character : Char)
    (lines : Lines) : Lines :=
  if character = '\n' then
    { first := [], later := lines.first :: lines.later }
  else
    { lines with first := character :: lines.first }

/-- Split the characters of a text at its line feeds. -/
def ofChars (characters : List Char) : Lines :=
  characters.foldr push { first := [], later := [] }

/-- Split a text at its line feeds. -/
def ofText (text : String) : Lines :=
  ofChars text.toList

/-- All lines, first to last. -/
def toList (lines : Lines) : List (List Char) :=
  lines.first :: lines.later

/-- The line with the given number, if the text has it. -/
def get?
    (lines : Lines)
    (number : Nat) : Option (List Char) :=
  lines.toList[number]?

/-- The number of the last line. -/
def lastNumber (lines : Lines) : Nat :=
  lines.later.length

end Lines

/-- Drop one carriage return at the end of a line. -/
def dropCarriageReturn (line : List Char) : List Char :=
  if line.getLast? = some '\r' then
    line.dropLast
  else
    line

/-- The text of a numbered line without its line ending; empty past the end. -/
def lineAt
    (text : String)
    (number : Nat) : String :=
  match (Lines.ofText text).get? number with
  | none =>
      ""
  | some line =>
      String.ofList (dropCarriageReturn line)

end ScriptCompletion.Text
