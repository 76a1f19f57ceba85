import ScriptCompletion.Text.Position
import ScriptCompletion.Text.Whitespace

namespace ScriptCompletion.Suggestion

/-!
# The word at the cursor

A suggestion replaces the longest run of word characters that touches the
cursor.  A cursor behind the end of the line counts as being at its end.
-/

/-- The characters that are neither whitespace nor a delimiter. -/
def isWordCharacter (character : Char) : Bool :=
  !Text.isWhitespace character &&
    !(['(', ')', '[', ']', ',', '"', '\''].contains character)

/-- The columns of the word that touches a column of a line. -/
def wordColumns
    (line : List Char)
    (column : Nat) : Nat × Nat :=
  let column := min column line.length
  let before := (line.take column).reverse.takeWhile isWordCharacter
  let after := (line.drop column).takeWhile isWordCharacter
  (column - before.length, column + after.length)

/-- The stretch of the line that a suggestion at the cursor replaces. -/
def wordSpan
    (line : String)
    (cursor : Position) : Span :=
  let (start, stop) := wordColumns line.toList cursor.column
  .onLine cursor.line start stop

end ScriptCompletion.Suggestion
