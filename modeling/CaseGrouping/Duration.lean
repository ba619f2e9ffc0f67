import CaseGrouping.Text.Numeral

/-! Spans of time: whole seconds in a word of 64 bits and the nanoseconds beyond them.
-/

namespace CaseGrouping

namespace Word

/-- The sum of two words, unless it does not fit in one. -/
def add? (a b : UInt64) : Option UInt64 :=
  if a.toNat + b.toNat < 2 ^ 64 then some (a + b) else none

/-- The product of two words, unless it does not fit in one. -/
def mul? (a b : UInt64) : Option UInt64 :=
  if a.toNat * b.toNat < 2 ^ 64 then some (a * b) else none

end Word

/-- A span of time of at most `2 ^ 64 - 1` seconds and 999,999,999 nanoseconds. -/
structure Duration where
  seconds : UInt64
  /-- The nanoseconds beyond the whole seconds. -/
  subsecondNanos : UInt32
  subsecondNanos_lt : subsecondNanos.toNat < 1000000000
  deriving DecidableEq

namespace Duration

/-- No time at all. -/
def zero : Duration :=
  ⟨0, 0, by decide⟩

/-- The longest span. -/
def longest : Duration :=
  ⟨0xFFFFFFFFFFFFFFFF, 999999999, by decide⟩

/-- A number of milliseconds. -/
def ofMillis (millis : UInt64) : Duration where
  seconds := millis / 1000
  subsecondNanos := (millis % 1000).toUInt32 * 1000000
  subsecondNanos_lt := by
    have below : millis.toNat % 1000 < 1000 := Nat.mod_lt _ (by decide)
    simp only [UInt32.toNat_mul, UInt64.toNat_toUInt32, UInt64.toNat_mod, UInt64.reduceToNat,
      UInt32.reduceToNat]
    exact Nat.lt_of_le_of_lt (Nat.mod_le _ _) (by omega)

/-- All nanoseconds of a span, those of its seconds included. -/
def nanos (d : Duration) : Nat :=
  d.seconds.toNat * 1000000000 + d.subsecondNanos.toNat

/-- The whole milliseconds. -/
def millis (d : Duration) : Nat :=
  d.nanos / 1000000

/-- Spans are ordered by their seconds, and by their nanoseconds if these are the same. -/
instance : LE Duration where
  le a b :=
    a.seconds < b.seconds ∨ a.seconds = b.seconds ∧ a.subsecondNanos ≤ b.subsecondNanos

/-- Thirty years of 365 days, in milliseconds. -/
def longestWait : Nat :=
  30 * 365 * 86400000

/-- The milliseconds that pass when asked to wait for a number of them: a wait ends after the
longest one at the latest.
-/
def waited (millis : Nat) : Nat :=
  min millis longestWait

/-- The span taken a number of times, unless the seconds do not fit their word. The nanoseconds are
multiplied by themselves, and what they make in whole seconds is carried over.
-/
def times? (d : Duration) (factor : UInt32) : Option Duration := do
  let nanos := d.subsecondNanos.toUInt64 * factor.toUInt64
  let seconds ← Word.mul? d.seconds factor.toUInt64
  let seconds ← Word.add? seconds (nanos / 1000000000)
  return {
    seconds
    subsecondNanos := (nanos % 1000000000).toUInt32
    subsecondNanos_lt := by
      simp only [UInt64.toNat_toUInt32, UInt64.toNat_mod, UInt64.reduceToNat]
      omega }

/-- The span taken a number of times, or the longest one. -/
def times (d : Duration) (factor : UInt32) : Duration :=
  (d.times? factor).getD longest

/-- An amount of a unit with as many decimals as it needs, out of `places`. -/
def amount (unit places nanos : Nat) (symbol : String) : String :=
  let fraction := Text.padNatural places (nanos % unit)
  let fraction := (fraction.reverse.dropWhile (· == '0')).reverse
  String.ofList (Nat.toDigits 10 (nanos / unit) ++ if fraction.isEmpty then [] else '.' :: fraction)
    ++ symbol

/-- The text of a span, in the greatest unit that it reaches. -/
def text (d : Duration) : String :=
  if 1000000000 ≤ d.nanos then amount 1000000000 9 d.nanos "s"
  else if 1000000 ≤ d.nanos then amount 1000000 6 d.nanos "ms"
  else if 1000 ≤ d.nanos then amount 1000 3 d.nanos "µs"
  else toString d.nanos ++ "ns"

end Duration

end CaseGrouping
