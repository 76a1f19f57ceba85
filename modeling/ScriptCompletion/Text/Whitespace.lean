namespace ScriptCompletion.Text

/-!
# Whitespace

The characters with the Unicode property `White_Space`.  The line feed is one
of them, so scanners that stop at line ends treat it before they ask here.
-/

/-- Whether the character has the Unicode property `White_Space`. -/
def isWhitespace (character : Char) : Bool :=
  let code := character.toNat
  (9 ≤ code && code ≤ 13) ||
    code == 0x20 ||
    code == 0x85 ||
    code == 0xA0 ||
    code == 0x1680 ||
    (0x2000 ≤ code && code ≤ 0x200A) ||
    code == 0x2028 ||
    code == 0x2029 ||
    code == 0x202F ||
    code == 0x205F ||
    code == 0x3000

/-- Whether the text holds nothing but whitespace. -/
def isBlank (text : String) : Bool :=
  text.toList.all isWhitespace

end ScriptCompletion.Text
