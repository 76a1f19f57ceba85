import ScriptCompletion.Toml.Number
import ScriptCompletion.Toml.Value

namespace ScriptCompletion.Toml

/-!
# Values without inner values

Numbers, dates, times and truth values are one run of letters, digits and
signs, so the run is taken first and then told apart.
-/

/-- Whether a character may stand in the run of a number, date or time. -/
def isRunCharacter (character : Char) : Bool :=
  isKeyCharacter character ||
    character == '+' ||
    character == '.' ||
    character == ':'

/-- The run at the front; one blank may stand between a date and a time. -/
def run (characters : List Char) : List Char × List Char :=
  let first := characters.takeWhile isRunCharacter
  let rest := characters.dropWhile isRunCharacter
  match rest with
  | ' ' :: digit :: after =>
      if (date? first).isSome && digit.isDigit then
        (first ++ ' ' :: (digit :: after).takeWhile isRunCharacter,
          (digit :: after).dropWhile isRunCharacter)
      else
        (first, rest)
  | _ =>
      (first, rest)

/-- What a run stands for. -/
def scalar? (written : List Char) : Option Value :=
  if written = ['t', 'r', 'u', 'e'] then
    some (.boolean true)
  else if written = ['f', 'a', 'l', 's', 'e'] then
    some (.boolean false)
  else
    match integer? written, moment? written with
    | some number, _ =>
        some (.integer number)
    | none, some moment =>
        some (.moment moment)
    | none, none =>
        if isFloat written then
          some (.float (String.ofList written))
        else
          none

/-- A number, a date, a time or a truth value. -/
def scalar : Reader Value := fun characters =>
  let (written, rest) := run characters
  (scalar? written).map fun value => (value, rest)

end ScriptCompletion.Toml
