import CaseGrouping.Decimal.Binary64

/-! The shortest decimal digits that read back as a given binary number, and their layout.
Of the decimals with the fewest digits the nearest is taken; an exact tie goes to the even digit.
-/

namespace CaseGrouping.Decimal

/-- A decimal number `digits * 10 ^ exponent`. -/
structure Scaled where
  digits : Nat
  exponent : Int
  deriving DecidableEq, Repr

/-- The power of ten of the first digit of a positive fraction. -/
def leadingPower (num den : Nat) : Int :=
  if den ≤ num then (Nat.toDigits 10 (num / den)).length - 1
  else -((Nat.toDigits 10 ((num - 1 + den) / num - 1)).length : Int)

/-- The fraction multiplied by a power of ten. -/
def timesPower (num den : Nat) (power : Int) : Nat × Nat :=
  if 0 ≤ power then (num * 10 ^ power.toNat, den) else (num, den * 10 ^ (-power).toNat)

/-- The open or closed interval of the fractions that round to a number, around it. -/
structure Neighbourhood where
  num : Nat
  den : Nat
  below : Nat
  above : Nat
  closed : Bool

/-- The fractions that round to a positive number: half a step on each side, with the end points
included when its significand is even. Numerators are four times the significand.
-/
def Neighbourhood.of (x : Binary64) : Neighbourhood :=
  let m := x.significand
  -- Below the least significand of a scale the steps are half as wide.
  let narrow := m == 2 ^ 52 && x.exponent != -1074
  let up := if 0 ≤ x.exponent then 2 ^ x.exponent.toNat else 1
  let down := if 0 ≤ x.exponent then 1 else 2 ^ (-x.exponent).toNat
  { num := 4 * m * up
    den := 4 * down
    below := (4 * m - (if narrow then 1 else 2)) * up
    above := (4 * m + 2) * up
    closed := m % 2 == 0 }

/-- A decimal lies in the interval. -/
def Neighbourhood.holds (n : Neighbourhood) (d : Scaled) : Bool :=
  let (value, unit) := timesPower d.digits 1 d.exponent
  let value := value * n.den
  if n.closed then n.below * unit ≤ value && value ≤ n.above * unit
  else n.below * unit < value && value < n.above * unit

/-- The better of the two neighbours of the number on the grid of `10 ^ power`, if any is in
its interval.
-/
def Neighbourhood.onGrid (n : Neighbourhood) (power : Int) : Option Scaled :=
  let (num, den) := timesPower n.num n.den (-power)
  let lower : Scaled := ⟨num / den, power⟩
  let upper : Scaled := ⟨num / den + 1, power⟩
  let twice := 2 * (num % den)
  match n.holds lower, n.holds upper with
  | true, true =>
      if twice < den then some lower
      else if den < twice then some upper
      else if lower.digits % 2 = 0 then some lower else some upper
  | true, false => some lower
  | false, true => some upper
  | false, false => none

/-- The first hit on grids of one digit, two digits and so on. -/
def Neighbourhood.search (n : Neighbourhood) (leading : Int) : Nat → Nat → Option Scaled
  | 0, _ => none
  | fuel + 1, count =>
      match n.onGrid (leading - count) with
      | some d => some d
      | none => n.search leading fuel (count + 1)

/-- The shortest decimal of a positive number: seventeen digits are always enough. -/
def shortest (x : Binary64) : Scaled :=
  let n := Neighbourhood.of x
  (n.search (leadingPower n.num n.den) 17 0).getD ⟨0, 0⟩

/-- How a decimal is written: the exponents of its first digit that are written in plain
notation; outside them one digit precedes the point and the exponent carries its sign.
-/
structure Layout where
  leastPlain : Int
  greatestPlain : Int

/-- A plain decimal of digits with `power` the exponent of the first; it keeps at least one
digit on either side of the point.
-/
def plain (digits : List Char) (power : Int) : List Char :=
  if power < 0 then
    '0' :: '.' :: List.replicate (-power - 1).toNat '0' ++ digits
  else
    let whole := power.toNat + 1
    if digits.length ≤ whole then
      digits ++ List.replicate (whole - digits.length) '0' ++ ['.', '0']
    else digits.take whole ++ '.' :: digits.drop whole

/-- One digit, the further digits after a point, and the signed exponent. -/
def scientific (digits : List Char) (power : Int) : List Char :=
  let further := digits.drop 1
  digits.take 1 ++ (if further.isEmpty then [] else '.' :: further)
    ++ 'e' :: (if power < 0 then '-' else '+') :: Nat.toDigits 10 power.natAbs

/-- The digits without the zeros at their end. -/
def stripZeros (digits : List Char) : List Char :=
  (digits.reverse.dropWhile (· == '0')).reverse

/-- A number written by a layout; a zero keeps its sign. -/
def render (layout : Layout) (x : Binary64) : List Char :=
  let sign := if x.isNegative then ['-'] else []
  if x.isZero then sign ++ ['0', '.', '0']
  else
    let d := shortest x
    let all := Nat.toDigits 10 d.digits
    let power := d.exponent + all.length - 1
    let digits := stripZeros all
    sign ++
      if layout.leastPlain ≤ power && power ≤ layout.greatestPlain then plain digits power
      else scientific digits power

end CaseGrouping.Decimal
