namespace ScriptCompletion.Toml

/-!
# Lexemes of TOML

Readers take a thing off the front of the characters and give back the rest.
Lines end with a line feed, possibly behind a carriage return, and no other
control character but the tab may stand in a document.
-/

/-- Takes an item off the front of the characters. -/
abbrev Reader (Item : Type) :=
  List Char → Option (Item × List Char)

/-- Whether a character separates items inside a line. -/
def isGap (character : Char) : Bool :=
  character == ' ' || character == '\t'

/-- Pass over the gap in front of the next item. -/
def skipGap (characters : List Char) : List Char :=
  characters.dropWhile isGap

/-- Whether a character may stand in a comment or a one-line string. -/
def isPlain (character : Char) : Bool :=
  character == '\t' || (0x20 ≤ character.toNat && character.toNat != 0x7F)

/-- Take a line end. -/
def lineEnd? : List Char → Option (List Char)
  | '\n' :: rest =>
      some rest
  | '\r' :: '\n' :: rest =>
      some rest
  | _ =>
      none

/-- Take a comment, if there is one, up to the end of its line. -/
def skipComment : List Char → List Char
  | '#' :: rest =>
      rest.dropWhile isPlain
  | characters =>
      characters

/-- Pass over gaps, comments and line ends. -/
def skipBlank (characters : List Char) : List Char :=
  let rest := skipComment (skipGap characters)
  match lineEnd? rest with
  | none =>
      rest
  | some after =>
      if after.length < characters.length then
        skipBlank after
      else
        rest
termination_by characters.length

/-- The value of a hexadecimal digit. -/
def hexDigit? (character : Char) : Option Nat :=
  if character.isDigit then
    some (character.toNat - '0'.toNat)
  else if 'a' ≤ character && character ≤ 'f' then
    some (character.toNat - 'a'.toNat + 10)
  else if 'A' ≤ character && character ≤ 'F' then
    some (character.toNat - 'A'.toNat + 10)
  else
    none

/-- The number that digits of a base make. -/
def digits?
    (base : Nat)
    (written : List Char) : Option Nat :=
  written.foldl
    (fun value character => do
      let digit ← hexDigit? character
      if digit < base then
        return (← value) * base + digit
      else
        none)
    (some 0)

/-- The character with the hexadecimal code. -/
def character? (written : List Char) : Option Char := do
  let code ← digits? 16 written
  if code.isValidChar then
    return Char.ofNat code
  else
    none

/-- The character behind a backslash that stands for one other character. -/
def escaped? : Char → Option Char
  | 'b' =>
      some '\x08'
  | 't' =>
      some '\t'
  | 'n' =>
      some '\n'
  | 'f' =>
      some '\x0c'
  | 'r' =>
      some '\r'
  | '"' =>
      some '"'
  | '\\' =>
      some '\\'
  | _ =>
      none

/-- The rest of a string in double quotes; `read` is kept in reverse. -/
def basicString
    (read : List Char)
    (characters : List Char) : Option (String × List Char) :=
  match characters with
  | '"' :: rest =>
      some (String.ofList read.reverse, rest)
  | '\\' :: 'u' :: a :: b :: c :: d :: rest => do
      basicString ((← character? [a, b, c, d]) :: read) rest
  | '\\' :: 'U' :: a :: b :: c :: d :: e :: f :: g :: h :: rest => do
      basicString ((← character? [a, b, c, d, e, f, g, h]) :: read) rest
  | '\\' :: character :: rest => do
      basicString ((← escaped? character) :: read) rest
  | character :: rest =>
      if isPlain character && character != '\\' then
        basicString (character :: read) rest
      else
        none
  | [] =>
      none

/-- The rest of a string in single quotes, in which nothing is escaped. -/
def literalString
    (read : List Char)
    (characters : List Char) : Option (String × List Char) :=
  match characters with
  | '\'' :: rest =>
      some (String.ofList read.reverse, rest)
  | character :: rest =>
      if isPlain character then
        literalString (character :: read) rest
      else
        none
  | [] =>
      none

/-- Whether only a gap stands in front of the end of the line. -/
def endsLine (characters : List Char) : Bool :=
  (lineEnd? (skipGap characters)).isSome

/-- The rest of a string in three double quotes.  Up to two quotes may stand in
front of the closing ones.  Behind a backslash at the end of a line, all gaps
and line ends are trimmed. -/
def longBasicString
    (trimming : Bool)
    (read : List Char)
    (characters : List Char) : Option (String × List Char) :=
  match characters with
  | '"' :: '"' :: '"' :: '"' :: '"' :: rest =>
      some (String.ofList ('"' :: '"' :: read).reverse, rest)
  | '"' :: '"' :: '"' :: '"' :: rest =>
      some (String.ofList ('"' :: read).reverse, rest)
  | '"' :: '"' :: '"' :: rest =>
      some (String.ofList read.reverse, rest)
  | '\r' :: '\n' :: rest =>
      longBasicString trimming (if trimming then read else '\n' :: read) rest
  | '\n' :: rest =>
      longBasicString trimming (if trimming then read else '\n' :: read) rest
  | '\\' :: 'u' :: a :: b :: c :: d :: rest => do
      longBasicString false ((← character? [a, b, c, d]) :: read) rest
  | '\\' :: 'U' :: a :: b :: c :: d :: e :: f :: g :: h :: rest => do
      longBasicString false
        ((← character? [a, b, c, d, e, f, g, h]) :: read) rest
  | '\\' :: character :: rest =>
      if endsLine (character :: rest) then
        longBasicString true read (character :: rest)
      else do
        longBasicString false ((← escaped? character) :: read) rest
  | character :: rest =>
      if trimming && isGap character then
        longBasicString true read rest
      else if isPlain character && character != '\\' then
        longBasicString false (character :: read) rest
      else
        none
  | [] =>
      none

/-- The rest of a string in three single quotes.  Up to two quotes may stand in
front of the closing ones. -/
def longLiteralString
    (read : List Char)
    (characters : List Char) : Option (String × List Char) :=
  match characters with
  | '\'' :: '\'' :: '\'' :: '\'' :: '\'' :: rest =>
      some (String.ofList ('\'' :: '\'' :: read).reverse, rest)
  | '\'' :: '\'' :: '\'' :: '\'' :: rest =>
      some (String.ofList ('\'' :: read).reverse, rest)
  | '\'' :: '\'' :: '\'' :: rest =>
      some (String.ofList read.reverse, rest)
  | '\r' :: '\n' :: rest =>
      longLiteralString ('\n' :: read) rest
  | '\n' :: rest =>
      longLiteralString ('\n' :: read) rest
  | character :: rest =>
      if isPlain character then
        longLiteralString (character :: read) rest
      else
        none
  | [] =>
      none

/-- Drop the line end right behind the opening of a long string. -/
def dropFirstLineEnd (characters : List Char) : List Char :=
  (lineEnd? characters).getD characters

/-- A string of any of the four forms. -/
def string : Reader String
  | '"' :: '"' :: '"' :: rest =>
      longBasicString false [] (dropFirstLineEnd rest)
  | '"' :: rest =>
      basicString [] rest
  | '\'' :: '\'' :: '\'' :: rest =>
      longLiteralString [] (dropFirstLineEnd rest)
  | '\'' :: rest =>
      literalString [] rest
  | _ =>
      none

/-- Whether a character may stand in a key without quotes. -/
def isKeyCharacter (character : Char) : Bool :=
  character.isAlphanum || character == '_' || character == '-'

/-- One part of a key, with or without quotes. -/
def keyPart : Reader String
  | '"' :: rest =>
      basicString [] rest
  | '\'' :: rest =>
      literalString [] rest
  | characters =>
      match characters.takeWhile isKeyCharacter with
      | [] =>
          none
      | part =>
          some (String.ofList part, characters.dropWhile isKeyCharacter)

/-- The parts of a key with dots between them, and the gap behind it. -/
def key (characters : List Char) : Option (List String × List Char) := do
  let (part, rest) ← keyPart (skipGap characters)
  match skipGap rest with
  | '.' :: after =>
      if after.length < characters.length then
        let (parts, rest) ← key after
        return (part :: parts, rest)
      else
        none
  | rest =>
      return ([part], rest)
termination_by characters.length

end ScriptCompletion.Toml
