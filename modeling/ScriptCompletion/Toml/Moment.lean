import ScriptCompletion.Toml.Lexeme

namespace ScriptCompletion.Toml

/-!
# Dates and times of TOML

A moment is a date, a time of day, or both, and with both there may be a
distance from universal time.  A moment may be written in several ways, and
`Moment.render` writes it in one of them.
-/

/-- A day of the calendar. -/
structure Date where
  year : Nat
  month : Nat
  day : Nat
deriving Repr, DecidableEq

/-- A time of day. -/
structure TimeOfDay where
  hour : Nat
  minute : Nat
  second : Nat
  nanosecond : Nat
deriving Repr, DecidableEq

/-- How far a time is from universal time. -/
inductive Offset where
  | universal
  /-- So many minutes ahead of universal time. -/
  | ahead (minutes : Nat)
  /-- So many minutes behind universal time. -/
  | behind (minutes : Nat)
deriving Repr, DecidableEq

/-- A date, a time of day, or both. -/
inductive Moment where
  | date (day : Date)
  | time (clock : TimeOfDay)
  | both (day : Date) (clock : TimeOfDay) (offset : Option Offset)
deriving Repr, DecidableEq

/-- A number of exactly so many decimal digits within bounds. -/
def fixedDigits?
    (count : Nat)
    (least : Nat)
    (greatest : Nat)
    (written : List Char) : Option Nat := do
  if written.length = count then
    let number ← digits? 10 written
    if least ≤ number && number ≤ greatest then
      return number
    else
      none
  else
    none

/-- The number of days of a month. -/
def daysOfMonth
    (year : Nat)
    (month : Nat) : Nat :=
  if month = 2 then
    if year % 4 = 0 && (year % 100 != 0 || year % 400 = 0) then
      29
    else
      28
  else if month = 4 || month = 6 || month = 9 || month = 11 then
    30
  else
    31

/-- A date: four digits of the year, two of the month and two of the day. -/
def date? : List Char → Option Date
  | [y, z, u, v, '-', m, n, '-', d, e] => do
      let year ← fixedDigits? 4 0 9999 [y, z, u, v]
      let month ← fixedDigits? 2 1 12 [m, n]
      let day ← fixedDigits? 2 1 (daysOfMonth year month) [d, e]
      return ⟨year, month, day⟩
  | _ =>
      none

/-- How many digits of a fraction of the second count. -/
def fractionDigits : Nat :=
  9

/-- The nanoseconds that a fraction of the second makes, with its point in
front.  Digits beyond the ninth are dropped. -/
def nanosecond? : List Char → Option Nat
  | [] =>
      some 0
  | '.' :: digits =>
      if digits.isEmpty || !digits.all Char.isDigit then
        none
      else
        let kept := digits.take fractionDigits
        digits? 10 (kept ++ List.replicate (fractionDigits - kept.length) '0')
  | _ =>
      none

/-- A time of day, with or without a fraction of the second.  A minute may have
a leap second. -/
def timeOfDay? : List Char → Option TimeOfDay
  | h :: i :: ':' :: m :: n :: ':' :: s :: t :: fraction => do
      let hour ← fixedDigits? 2 0 23 [h, i]
      let minute ← fixedDigits? 2 0 59 [m, n]
      let second ← fixedDigits? 2 0 60 [s, t]
      return ⟨hour, minute, second, ← nanosecond? fraction⟩
  | _ =>
      none

/-- The distance from universal time: a letter, or hours and minutes. -/
def offset? : List Char → Option Offset
  | ['Z'] | ['z'] =>
      some .universal
  | [sign, h, i, ':', m, n] => do
      let hours ← fixedDigits? 2 0 23 [h, i]
      let minutes ← fixedDigits? 2 0 59 [m, n]
      if sign = '+' then
        return .ahead (hours * 60 + minutes)
      else if sign = '-' then
        return .behind (hours * 60 + minutes)
      else
        none
  | _ =>
      none

/-- Whether a character starts the distance from universal time. -/
def startsOffset (character : Char) : Bool :=
  character == 'Z' || character == 'z' || character == '+' || character == '-'

/-- The time of day of a date, possibly with a distance from universal time. -/
def timeOfDate?
    (date : Date)
    (written : List Char) : Option Moment := do
  let time ← timeOfDay? (written.takeWhile fun character =>
    !startsOffset character)
  match written.dropWhile fun character => !startsOffset character with
  | [] =>
      return .both date time none
  | offset =>
      return .both date time (some (← offset? offset))

/-- A moment; a letter or a blank stands between its date and its time. -/
def moment? (written : List Char) : Option Moment :=
  match timeOfDay? written, date? (written.take 10), written.drop 10 with
  | some time, _, _ =>
      some (.time time)
  | none, some date, [] =>
      some (.date date)
  | none, some date, separator :: time =>
      if separator = 'T' || separator = 't' || separator = ' ' then
        timeOfDate? date time
      else
        none
  | none, none, _ =>
      none

/-- The decimal digits of a number, at least so many. -/
def padded
    (width : Nat)
    (number : Nat) : List Char :=
  let digits := Nat.toDigits 10 number
  List.replicate (width - digits.length) '0' ++ digits

/-- The characters of a date. -/
def Date.render (date : Date) : List Char :=
  padded 4 date.year ++ '-' :: padded 2 date.month ++ '-' :: padded 2 date.day

/-- The characters of a time of day.  The fraction of the second ends with its
last digit other than zero. -/
def TimeOfDay.render (time : TimeOfDay) : List Char :=
  let fraction :=
    ((padded fractionDigits time.nanosecond).reverse.dropWhile fun digit =>
      digit == '0').reverse
  padded 2 time.hour ++
    ':' :: padded 2 time.minute ++
    ':' :: padded 2 time.second ++
    (if fraction.isEmpty then [] else '.' :: fraction)

/-- Hours and minutes with a colon between them. -/
def renderMinutes (minutes : Nat) : List Char :=
  padded 2 (minutes / 60) ++ ':' :: padded 2 (minutes % 60)

/-- The characters of a distance from universal time.  No distance at all has a
plus sign. -/
def Offset.render : Offset → List Char
  | .universal =>
      ['Z']
  | .ahead minutes =>
      '+' :: renderMinutes minutes
  | .behind minutes =>
      (if minutes = 0 then '+' else '-') :: renderMinutes minutes

/-- The text of a moment. -/
def Moment.render : Moment → String
  | .date day =>
      String.ofList day.render
  | .time clock =>
      String.ofList clock.render
  | .both day clock offset =>
      String.ofList
        (day.render ++ 'T' :: clock.render ++
          (offset.map Offset.render).getD [])

end ScriptCompletion.Toml
