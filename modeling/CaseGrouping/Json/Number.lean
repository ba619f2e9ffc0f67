import CaseGrouping.Decimal.Shortest

/-! Numbers of the data format: integers in the ranges of 64-bit words stay integers, any other
number is a binary floating-point number.
-/

namespace CaseGrouping.Json

open CaseGrouping.Decimal

/-- A number that a value keeps. -/
inductive Number where
  | natural (n : UInt64)
  /-- The integer one below the negated argument. -/
  | negative (pred : Fin (2 ^ 63))
  | double (x : Binary64)
  deriving DecidableEq

/-- A numeral as it is spelled: digits before and after the point, and a signed exponent. -/
structure Numeral where
  minus : Bool
  whole : List Nat
  fraction : List Nat
  exponent : Option (Bool × Nat)
  deriving DecidableEq, Repr

namespace Numeral

/-- The greatest significand that is carried while digits are read. -/
def significandLimit : Nat :=
  2 ^ 64 - 1

/-- Takes digits into the significand while it stays within its limit; returns it and the count
of digits taken.
-/
def absorb : Nat → List Nat → Nat × Nat
  | value, [] => (value, 0)
  | value, d :: rest =>
      if value * 10 + d ≤ significandLimit then
        let (result, taken) := absorb (value * 10 + d) rest
        (result, taken + 1)
      else (value, 0)

/-- The power of ten as the nearest binary number. -/
def powerOfTen (k : Nat) : Option Binary64 :=
  Binary64.ofNat (10 ^ k)

/-- The greatest power of ten that one rounded step scales by. -/
def greatestStep : Nat :=
  308

/-- Divides by the greatest step a number of times, stopping at zero. -/
def lower (x : Binary64) : Nat → Option Binary64
  | 0 => some x
  | steps + 1 =>
      if x.isZero then some x
      else do lower (← x.div (← powerOfTen greatestStep)) steps

/-- Scales a number by a power of ten in one rounded step, after steps of the greatest size while
the power is below its reach; `none` when the result exceeds every finite number.
-/
def scale (x : Binary64) (power : Int) : Option Binary64 :=
  if 0 ≤ power then
    if power.toNat ≤ greatestStep then do x.mul (← powerOfTen power.toNat)
    else if x.isZero then some x else none
  else do
    let steps := ((-power).toNat - 1) / greatestStep
    let y ← lower x steps
    y.div (← powerOfTen ((-power).toNat - steps * greatestStep))

/-- The exponent of a numeral, none written counting as zero. -/
def power (n : Numeral) : Int :=
  match n.exponent with
  | none => 0
  | some (negative, e) => if negative then -(e : Int) else e

/-- The greatest exponent that is told from an endless one. -/
def exponentLimit : Nat :=
  2 ^ 31 - 1

/-- The binary number of a numeral: its significand, cut to the digits that fit a 64-bit word, is
rounded and then scaled; `none` when it exceeds every finite number.
-/
def toDouble? (n : Numeral) : Option Binary64 := do
  let (head, taken) := absorb 0 n.whole
  let dropped := n.whole.length - taken
  -- A digit that no longer fits counts as a zero before the point and as nothing after it.
  let (significand, placed) := absorb head n.fraction
  let endless := match n.exponent with
    | none => false
    | some (_, e) => exponentLimit < e
  let magnitude ←
    if endless then
      if significand = 0 || n.power < 0 then some (Binary64.ofMagnitude false 0) else none
    else do scale (← Binary64.ofNat significand) ((dropped : Int) - placed + n.power)
  return magnitude.withSign n.minus

/-- The value of a list of digits. -/
def digitsValue (digits : List Nat) : Nat :=
  digits.foldl (fun value d => value * 10 + d) 0

/-- The number that a numeral denotes; `none` when it is out of range. -/
def toNumber? (n : Numeral) : Option Number :=
  let value := digitsValue n.whole
  if n.fraction.isEmpty && n.exponent.isNone then
    if n.minus then
      -- Minus zero is no integer: its sign is kept.
      if h : 0 < value ∧ value - 1 < 2 ^ 63 then some (.negative ⟨value - 1, h.2⟩)
      else n.toDouble?.map .double
    else if value < 2 ^ 64 then some (.natural (UInt64.ofNat value))
    else n.toDouble?.map .double
  else n.toDouble?.map .double

end Numeral

namespace Number

/-- The number with a zero that has no sign. -/
def withPlainZero : Number → Number
  | .double x => .double (if x.isZero then x.withSign false else x)
  | n => n

/-- Decimals are plain from `0.00001` up to sixteen digits before the point. -/
def layout : Layout :=
  ⟨-5, 15⟩

/-- A number as it is written. -/
def chars : Number → List Char
  | .natural n => Nat.toDigits 10 n.toNat
  | .negative pred => '-' :: Nat.toDigits 10 (pred.val + 1)
  | .double x => render layout x

end Number

end CaseGrouping.Json
