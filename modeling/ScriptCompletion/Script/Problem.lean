import ScriptCompletion.Text.Position

namespace ScriptCompletion.Script

/-!
# Syntax problems

Reading a script never fails.  What is wrong with it is recorded as a list of
problems, each with the position at which it was found.
-/

/-- The largest script that is read, in bytes of its UTF-8 form. -/
def maxBytes : Nat :=
  1000000

/-- The largest number of blocks that may be open at once. -/
def maxBlockDepth : Nat :=
  64

/-- What is wrong at a position of a script. -/
inductive Cause where
  | inputTooLarge (bytes : Nat)
  | unterminatedString (quote : Char)
  | unclosedArray
  | unclosedHelperCall
  | unexpectedClosing
  | expectedCommandName (found : String)
  | openingInsideLine
  | nestedTooDeep
  | unclosedBlock
deriving Repr, DecidableEq

/-- The wording of a cause. -/
def Cause.message : Cause → String
  | .inputTooLarge bytes =>
      s!"Input too large: {bytes} bytes (max {maxBytes})"
  | .unterminatedString quote =>
      s!"unterminated string, missing {quote}"
  | .unclosedArray =>
      "unclosed '['"
  | .unclosedHelperCall =>
      "unclosed '(' in helper call"
  | .unexpectedClosing =>
      "unexpected ')'"
  | .expectedCommandName found =>
      s!"expected command name, found '{found}'"
  | .openingInsideLine =>
      "'(' must end the line to open a block"
  | .nestedTooDeep =>
      s!"blocks nested deeper than {maxBlockDepth}"
  | .unclosedBlock =>
      "unclosed block, missing ')'"

/-- A cause and where it was found. -/
structure Problem where
  cause : Cause
  position : Position
deriving Repr, DecidableEq

/-- Order problems by position; problems at one position keep their order. -/
def sortProblems (problems : List Problem) : List Problem :=
  problems.mergeSort fun first second =>
    decide (first.position ≤ second.position)

end ScriptCompletion.Script
