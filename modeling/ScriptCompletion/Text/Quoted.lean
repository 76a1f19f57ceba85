import ScriptCompletion.Text.Extending
import ScriptCompletion.Text.Nonprinting

namespace ScriptCompletion.Text

/-!
# Quoted text

Two ways to write a text between double quotes: one for diagnostics, which
shows every character that cannot be seen by its code, and one for JSON, which
escapes only what it must.
-/

/-- The hexadecimal digits of a number, without leading zeros. -/
def hexDigits (number : Nat) : List Char :=
  Nat.toDigits 16 number

/-- Whether a character is shown by its code: it is not visible, or it would be
drawn on the one in front of it, which may be the opening quote. -/
def isInvisible (character : Char) : Bool :=
  isExtending character || isNonprinting character

/-- One character of a text in a diagnostic. -/
def diagnosticCharacter (character : Char) : List Char :=
  match character with
  | '"' =>
      ['\\', '"']
  | '\\' =>
      ['\\', '\\']
  | '\n' =>
      ['\\', 'n']
  | '\r' =>
      ['\\', 'r']
  | '\t' =>
      ['\\', 't']
  | '\x00' =>
      ['\\', '0']
  | _ =>
      if isInvisible character then
        ['\\', 'u', '\x7b'] ++ hexDigits character.toNat ++ ['\x7d']
      else
        [character]

/-- A text in a diagnostic. -/
def diagnostic (text : String) : String :=
  String.ofList ('"' :: text.toList.flatMap diagnosticCharacter ++ ['"'])

/-- One character of a JSON string. -/
def jsonCharacter (character : Char) : List Char :=
  match character with
  | '"' =>
      ['\\', '"']
  | '\\' =>
      ['\\', '\\']
  | '\n' =>
      ['\\', 'n']
  | '\r' =>
      ['\\', 'r']
  | '\t' =>
      ['\\', 't']
  | '\x08' =>
      ['\\', 'b']
  | '\x0c' =>
      ['\\', 'f']
  | _ =>
      if character.toNat < 0x10 then
        ['\\', 'u', '0', '0', '0'] ++ hexDigits character.toNat
      else if character.toNat < 0x20 then
        ['\\', 'u', '0', '0'] ++ hexDigits character.toNat
      else
        [character]

/-- A JSON string. -/
def jsonString (text : String) : String :=
  String.ofList ('"' :: text.toList.flatMap jsonCharacter ++ ['"'])

end ScriptCompletion.Text
