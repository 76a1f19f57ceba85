import ScriptCompletion.Script.Tree

namespace ScriptCompletion

/-!
# Arguments of evaluated commands

Only ASCII letters, digits and the underscore make a variable name, and an
address is written with forty hexadecimal digits.
-/

/-- Whether a character can follow the dollar sign of a variable. -/
def startsVariableName (character : Char) : Bool :=
  character.isAlpha || character == '_'

/-- Whether a character can stand further on in the name of a variable. -/
def continuesVariableName (character : Char) : Bool :=
  character.isAlphanum || character == '_'

/-- Whether a text is a dollar sign and a name. -/
def isVariableName (text : String) : Bool :=
  match text.toList with
  | '$' :: first :: rest =>
      startsVariableName first && rest.all continuesVariableName
  | _ =>
      false

/-- Whether a character is a hexadecimal digit. -/
def isHexDigit (character : Char) : Bool :=
  character.isDigit ||
    ('a' ≤ character && character ≤ 'f') ||
    ('A' ≤ character && character ≤ 'F')

/-- Whether a text is `0x` and forty hexadecimal digits. -/
def isAddress (text : String) : Bool :=
  match text.toList with
  | '0' :: 'x' :: digits =>
      digits.length == 40 && digits.all isHexDigit
  | _ =>
      false

/-- The text that an argument stands for: a variable in scope gives its text,
and an unknown one stands for itself. -/
def Script.Argument.resolve
    (argument : Script.Argument)
    (variableText? : String → Option String) : String :=
  match argument.kind with
  | .variable =>
      (variableText? argument.raw).getD argument.raw
  | .literal | .string | .helper | .array =>
      argument.value

end ScriptCompletion
