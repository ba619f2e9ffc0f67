import CaseGrouping.Json.Decode
import CaseGrouping.Text.Blank

/-! Instants in universal time: calendar arithmetic, and the texts of the RFC 3339 profile.
-/

namespace CaseGrouping

/-- An instant: seconds since the start of 1970 and nanoseconds, which reach into a second billion
within a leap second.
-/
structure Timestamp where
  seconds : Int
  nanos : Nat
  deriving DecidableEq, Repr

namespace Timestamp

/-- The start of 1970. -/
def epoch : Timestamp :=
  ⟨0, 0⟩

/-- The instant a number of milliseconds after the start of 1970. -/
def ofMillis (millis : Nat) : Timestamp :=
  ⟨millis / 1000, millis % 1000 * 1000000⟩

-----------------------------------------------------------------------------------------
-- Calendar
-----------------------------------------------------------------------------------------

/-- A year with a 29th of February. -/
def isLeapYear (year : Int) : Bool :=
  year % 4 = 0 && (year % 100 ≠ 0 || year % 400 = 0)

/-- The number of days of a month. -/
def daysInMonth (year : Int) (month : Nat) : Nat :=
  match month with
  | 2 => if isLeapYear year then 29 else 28
  | 4 | 6 | 9 | 11 => 30
  | _ => 31

/-- Days from the start of 1970 to a date, counting years from March. -/
def daysOfDate (year : Int) (month day : Nat) : Int :=
  -- 400 years have 146097 days, and 719468 days lie between March of year 0 and 1970.
  let y := if month ≤ 2 then year - 1 else year
  let era := y / 400
  let yearOfEra := y % 400
  let monthFromMarch : Int := (month + 9) % 12
  -- Five months from March on have 153 days.
  let dayOfYear := (153 * monthFromMarch + 2) / 5 + day - 1
  era * 146097 + yearOfEra * 365 + yearOfEra / 4 - yearOfEra / 100 + dayOfYear - 719468

/-- The date of a number of days from the start of 1970. -/
def dateOfDays (days : Int) : Int × Nat × Nat :=
  let z := days + 719468
  let era := z / 146097
  let dayOfEra := z % 146097
  let yearOfEra := (dayOfEra - dayOfEra / 1460 + dayOfEra / 36524 - dayOfEra / 146096) / 365
  let dayOfYear := dayOfEra - (365 * yearOfEra + yearOfEra / 4 - yearOfEra / 100)
  let monthFromMarch := (5 * dayOfYear + 2) / 153
  let day := dayOfYear - (153 * monthFromMarch + 2) / 5 + 1
  let month := if monthFromMarch < 10 then monthFromMarch + 3 else monthFromMarch - 9
  let year := yearOfEra + era * 400 + (if month ≤ 2 then 1 else 0)
  (year, month.toNat, day.toNat)

-----------------------------------------------------------------------------------------
-- Writing
-----------------------------------------------------------------------------------------

/-- Two digits of a number below a hundred. -/
def twoDigits (n : Nat) : List Char :=
  Text.padNatural 2 n

/-- A year: four digits, or a sign and at least four digits outside the years 0 to 9999. -/
def yearChars (year : Int) : List Char :=
  if 0 ≤ year ∧ year ≤ 9999 then Text.padNatural 4 year.toNat
  else (if year < 0 then '-' else '+') :: Text.padNatural 4 year.natAbs

/-- The fraction of a second in as many of 0, 3, 6 or 9 digits as it needs. -/
def fractionChars (nanos : Nat) : List Char :=
  if nanos = 0 then []
  else if nanos % 1000000 = 0 then '.' :: Text.padNatural 3 (nanos / 1000000)
  else if nanos % 1000 = 0 then '.' :: Text.padNatural 6 (nanos / 1000)
  else '.' :: Text.padNatural 9 nanos

/-- The text of an instant in universal time. -/
def text (t : Timestamp) : String :=
  let (year, month, day) := dateOfDays (t.seconds / 86400)
  let second := (t.seconds % 86400).toNat
  let leap := t.nanos / 1000000000
  String.ofList <|
    yearChars year ++ '-' :: twoDigits month ++ '-' :: twoDigits day
      ++ 'T' :: twoDigits (second / 3600) ++ ':' :: twoDigits (second / 60 % 60)
      ++ ':' :: twoDigits (second % 60 + leap) ++ fractionChars (t.nanos % 1000000000) ++ ['Z']

-----------------------------------------------------------------------------------------
-- Reading
-----------------------------------------------------------------------------------------

/-- Drops leading blanks. -/
def skipBlanks (cs : List Char) : List Char :=
  cs.dropWhile Text.isBlank

/-- Reads between one and `width` digits. -/
def readDigits (width : Nat) (cs : List Char) : Option (List Nat × List Char) :=
  match (cs.take width).takeWhile Char.isDigit with
  | [] => none
  | ds => some (ds.map fun c => c.toNat - '0'.toNat, cs.drop ds.length)

/-- Reads a number of between one and `width` digits after optional blanks. -/
def readNumber (width : Nat) (cs : List Char) : Option (Nat × List Char) := do
  let (ds, rest) ← readDigits width (skipBlanks cs)
  return (Json.Numeral.digitsValue ds, rest)

/-- Reads a year: four digits at most, or any number of them after a sign. -/
def readYear (cs : List Char) : Option (Int × List Char) :=
  match skipBlanks cs with
  | '-' :: rest => do
      let (ds, rest) ← readDigits rest.length rest
      return (-(Json.Numeral.digitsValue ds : Int), rest)
  | '+' :: rest => do
      let (ds, rest) ← readDigits rest.length rest
      return ((Json.Numeral.digitsValue ds : Int), rest)
  | cs => do
      let (ds, rest) ← readDigits 4 cs
      return ((Json.Numeral.digitsValue ds : Int), rest)

/-- Reads a mark after optional blanks. -/
def readMark (mark : Char) (cs : List Char) : Option (List Char) :=
  match skipBlanks cs with
  | c :: rest => if c = mark then some rest else none
  | [] => none

/-- Reads a fraction of a second into nanoseconds; digits after the ninth are dropped. -/
def readFraction (cs : List Char) : Option (Nat × List Char) :=
  match cs with
  | '.' :: rest => do
      let (ds, _) ← readDigits 9 rest
      return (Json.Numeral.digitsValue ds * 10 ^ (9 - ds.length), rest.dropWhile Char.isDigit)
  | _ => some (0, cs)

/-- Reads exactly two digits. -/
def readPair (cs : List Char) : Option (Nat × List Char) :=
  match cs with
  | a :: b :: rest =>
      if a.isDigit && b.isDigit then
        some ((a.toNat - '0'.toNat) * 10 + (b.toNat - '0'.toNat), rest)
      else none
  | _ => none

/-- Reads an offset from universal time into seconds: `Z`, `UTC`, or a sign with hours and
minutes.
-/
def readOffset (cs : List Char) : Option (Int × List Char) :=
  let cs := skipBlanks cs
  let signed (sign : Int) (rest : List Char) : Option (Int × List Char) := do
    let (hours, rest) ← readPair rest
    let (minutes, rest) ← readPair (rest.dropWhile fun c => c = ':' || Text.isBlank c)
    if minutes < 60 then some (sign * (hours * 3600 + minutes * 60 : Nat), rest) else none
  if (cs.take 3).map Char.toUpper = ['U', 'T', 'C'] then some (0, cs.drop 3)
  else
    match cs with
    | 'Z' :: rest | 'z' :: rest => some (0, rest)
    | '+' :: rest => signed 1 rest
    | '-' :: rest | '−' :: rest => signed (-1) rest
    | _ => none

/-- The years that a date may have. -/
def isYear (year : Int) : Bool :=
  -262143 ≤ year && year ≤ 262142

/-- The instant of a date and time at an offset; a sixtieth second is a leap second. -/
def ofParts? (year : Int) (month day hour minute second nanos : Nat) (offset : Int)
    : Option Timestamp :=
  if isYear year && 1 ≤ month && month ≤ 12 && 1 ≤ day && day ≤ daysInMonth year month
      && hour < 24 && minute < 60 && second ≤ 60 && offset.natAbs < 86400 then
    let leap := second / 60
    let t : Timestamp :=
      ⟨daysOfDate year month day * 86400 + (hour * 3600 + minute * 60 + (second - leap) : Nat)
        - offset, nanos + leap * 1000000000⟩
    if isYear (dateOfDays (t.seconds / 86400)).1 then some t else none
  else none

/-- Reads a date and time with an offset. Blanks may stand between the parts, and one of `T`,
`t` or a space stands between date and time.
-/
def ofText? (s : String) : Option Timestamp := do
  let (year, cs) ← readYear s.toList
  let (month, cs) ← readNumber 2 (← readMark '-' cs)
  let (day, cs) ← readNumber 2 (← readMark '-' cs)
  let cs ← match cs with
    | 'T' :: rest | 't' :: rest | ' ' :: rest => some rest
    | _ => none
  let (hour, cs) ← readNumber 2 cs
  let (minute, cs) ← readNumber 2 (← readMark ':' cs)
  let (second, cs) ← readNumber 2 (← readMark ':' cs)
  let (nanos, cs) ← readFraction cs
  let (offset, cs) ← readOffset cs
  if skipBlanks cs = [] then ofParts? year month day hour minute second nanos offset else none

instance : Json.Form Timestamp where
  toValue t := .string t.text
  decoder := Json.Decode.parsed ofText?

end Timestamp

end CaseGrouping
