import ScriptCompletion.Toml.Lexeme

namespace ScriptCompletion.Toml

/-!
# Numbers of TOML

Integers have 64 bits, and only a zero starts with zero.  Other numbers are
rounded to 64 bits, which may not make them infinite.
-/

/-- Drop the underscores between digits; one at an end or beside another one is
refused. -/
def withoutUnderscores? : List Char → Option (List Char)
  | [] =>
      some []
  | ['_'] =>
      none
  | '_' :: _ =>
      none
  | first :: '_' :: second :: rest =>
      if second = '_' then
        none
      else do
        return first :: (← withoutUnderscores? (second :: rest))
  | first :: rest => do
      return first :: (← withoutUnderscores? rest)

/-- Digits of a base, of which there is at least one. -/
def magnitude?
    (base : Nat)
    (written : List Char) : Option Nat := do
  let digits ← withoutUnderscores? written
  if digits.isEmpty then
    none
  else
    digits? base digits

/-- Decimal digits; a leading zero stands alone. -/
def decimal? (written : List Char) : Option Nat :=
  match written with
  | '0' :: _ :: _ =>
      none
  | _ =>
      magnitude? 10 written

/-- The first integer that is too large for 64 bits with sign. -/
def integerBound : Int :=
  9223372036854775808

/-- An integer, if it has 64 bits with sign. -/
def bounded? (number : Int) : Option Int :=
  if -integerBound ≤ number && number < integerBound then
    some number
  else
    none

/-- An integer in any of its forms. -/
def integer? : List Char → Option Int
  | '0' :: 'x' :: digits => do
      bounded? (← magnitude? 16 digits)
  | '0' :: 'o' :: digits => do
      bounded? (← magnitude? 8 digits)
  | '0' :: 'b' :: digits => do
      bounded? (← magnitude? 2 digits)
  | '-' :: digits => do
      bounded? (-(← decimal? digits))
  | '+' :: digits => do
      bounded? (← decimal? digits)
  | digits => do
      bounded? (← decimal? digits)

/-- Drop the sign in front of a number. -/
def dropSign : List Char → List Char
  | '+' :: rest =>
      rest
  | '-' :: rest =>
      rest
  | characters =>
      characters

/-- Whether a number has a minus sign. -/
def isNegative (written : List Char) : Bool :=
  written.head? == some '-'

/-- A number `significand * 10 ^ exponent` with its sign apart. -/
structure Scientific where
  negative : Bool
  significand : Nat
  exponent : Int
deriving Repr, DecidableEq

/-- The first magnitude that is not nearer to a finite number of 64 bits than
to the power of two beyond all of them. -/
def overflowBound : Nat :=
  Nat.pow 2 1024 - Nat.pow 2 970

/-- The greatest power of ten below the bound. -/
def greatestPower : Nat :=
  308

/-- Whether the magnitude of the number is beyond all numbers of 64 bits.  The
powers that are computed stay as small as the number is long: a significand
other than zero with a greater exponent is beyond them, and one with no more
bits than decimal places is less than one. -/
def Scientific.overflows (number : Scientific) : Bool :=
  match number.exponent with
  | .ofNat exponent =>
      number.significand != 0 &&
        (greatestPower < exponent ||
          overflowBound ≤ number.significand * Nat.pow 10 exponent)
  | .negSucc fewer =>
      let places := fewer + 1
      places ≤ number.significand.log2 &&
        overflowBound * Nat.pow 10 places ≤ number.significand

/-- Whether a character starts an exponent. -/
def isExponentLetter (character : Char) : Bool :=
  character == 'e' || character == 'E'

/-- The exponent of a number, its letter included. -/
def exponent? : List Char → Option Int
  | letter :: rest => do
      let magnitude ← magnitude? 10 (dropSign rest)
      if isExponentLetter letter then
        return if isNegative rest then -magnitude else magnitude
      else
        none
  | [] =>
      none

/-- The whole part of a number and what is behind it. -/
def splitWhole (unsigned : List Char) : List Char × List Char :=
  let inWhole (character : Char) : Bool :=
    character != '.' && !isExponentLetter character
  (unsigned.takeWhile inWhole, unsigned.dropWhile inWhole)

/-- A number with a fraction, an exponent or both. -/
def scientific? (written : List Char) : Option Scientific := do
  let (whole, rest) := splitWhole (dropSign written)
  let units ← decimal? whole
  match rest with
  | '.' :: behind =>
      let inFraction (character : Char) : Bool :=
        !isExponentLetter character
      let fraction := behind.takeWhile inFraction
      let tail := behind.dropWhile inFraction
      let parts ← magnitude? 10 fraction
      let places := (← withoutUnderscores? fraction).length
      let exponent ← if tail.isEmpty then some 0 else exponent? tail
      return ⟨isNegative written, units * Nat.pow 10 places + parts,
        exponent - places⟩
  | tail =>
      return ⟨isNegative written, units, ← exponent? tail⟩

/-- Whether the characters are a number with a fraction or an exponent, or one
of the special numbers.  A number beyond all positive ones of 64 bits is
refused, and one beyond all negative ones is minus infinity. -/
def isFloat (written : List Char) : Bool :=
  let unsigned := dropSign written
  if unsigned = ['i', 'n', 'f'] || unsigned = ['n', 'a', 'n'] then
    true
  else
    match scientific? written with
    | none =>
        false
    | some number =>
        number.negative || !number.overflows

end ScriptCompletion.Toml
