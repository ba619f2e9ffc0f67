import CaseGrouping.Instances

/-! Decimal numerals of bounded natural numbers, as a configuration value or a header holds them.
-/

namespace CaseGrouping.Text

/-- Why a text is not a numeral within its bound. -/
inductive NumeralError where
  | empty
  | invalidDigit
  | tooLarge
  deriving DecidableEq, Repr

/-- The wording of a numeral error. -/
def NumeralError.message : NumeralError → String
  | .empty => "cannot parse integer from empty string"
  | .invalidDigit => "invalid digit found in string"
  | .tooLarge => "number too large to fit in target type"

/-- The value of an ASCII decimal digit. -/
def digitValue? (c : Char) : Option Nat :=
  if c.isDigit then some (c.toNat - '0'.toNat) else none

/-- Reads the remaining digits after a value, refusing at the first fault from the left. -/
def readDigits (limit : Nat) : Nat → List Char → Except NumeralError Nat
  | value, [] => .ok value
  | value, c :: rest =>
      match digitValue? c with
      | none => .error .invalidDigit
      | some d =>
          if value * 10 + d ≤ limit then readDigits limit (value * 10 + d) rest
          else .error .tooLarge

/-- Reads a numeral of at most `limit`, with an optional plus sign. -/
def readNatural (limit : Nat) (s : String) : Except NumeralError Nat :=
  match s.toList with
  | [] => .error .empty
  | ['+'] => .error .invalidDigit
  | '+' :: rest => readDigits limit 0 rest
  | cs => readDigits limit 0 cs

/-- The greatest number of a word of the given width. -/
def wordLimit (bits : Nat) : Nat :=
  2 ^ bits - 1

/-- A number with at least `width` digits, filled with zeros on the left. -/
def padNatural (width n : Nat) : List Char :=
  let digits := Nat.toDigits 10 n
  List.replicate (width - digits.length) '0' ++ digits

end CaseGrouping.Text
