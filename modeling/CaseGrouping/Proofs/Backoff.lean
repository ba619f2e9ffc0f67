import CaseGrouping.RetryPolicy

/-! Pauses between attempts. A span taken a number of times is worked out in words, and yet it is
exact to the nanosecond, or else the longest span; so pauses double until they are as long as a
span can be, and a longer base never makes one shorter.
-/

namespace CaseGrouping

-----------------------------------------------------------------------------------------
-- Words
-----------------------------------------------------------------------------------------

namespace Word

variable {a b c : UInt64}

theorem toNat_of_add? (sum : add? a b = some c) : c.toNat = a.toNat + b.toNat := by
  unfold add? at sum
  split at sum
  next fits =>
    cases sum
    rw [UInt64.toNat_add, Nat.mod_eq_of_lt fits]
  next => cases sum

theorem le_of_add?_eq_none (none : add? a b = none) : 2 ^ 64 ≤ a.toNat + b.toNat := by
  unfold add? at none
  split at none
  next => cases none
  next large => exact Nat.le_of_not_lt large

theorem toNat_of_mul? (product : mul? a b = some c) : c.toNat = a.toNat * b.toNat := by
  unfold mul? at product
  split at product
  next fits =>
    cases product
    rw [UInt64.toNat_mul, Nat.mod_eq_of_lt fits]
  next => cases product

theorem le_of_mul?_eq_none (none : mul? a b = none) : 2 ^ 64 ≤ a.toNat * b.toNat := by
  unfold mul? at none
  split at none
  next => cases none
  next large => exact Nat.le_of_not_lt large

end Word

-----------------------------------------------------------------------------------------
-- Spans
-----------------------------------------------------------------------------------------

namespace Duration

variable {a b d t : Duration} {factor : UInt32}

/-- The order of spans is that of their nanoseconds. -/
theorem le_iff_nanos : a ≤ b ↔ a.nanos ≤ b.nanos := by
  have below := a.subsecondNanos_lt
  have below' := b.subsecondNanos_lt
  change a.seconds < b.seconds ∨ a.seconds = b.seconds ∧ a.subsecondNanos ≤ b.subsecondNanos ↔ _
  rw [UInt64.lt_iff_toNat_lt, UInt32.le_iff_toNat_le, ← UInt64.toNat_inj, nanos, nanos]
  omega

theorem le_longest (d : Duration) : d ≤ longest := by
  have below := d.subsecondNanos_lt
  have word := d.seconds.toNat_lt
  rw [le_iff_nanos, nanos, show longest.nanos = 2 ^ 64 * 1000000000 - 1 from rfl]
  omega

/-- The nanoseconds beyond the seconds fit their word when they are multiplied. -/
theorem toNat_subsecondNanos_mul (d : Duration) (factor : UInt32)
    : (d.subsecondNanos.toUInt64 * factor.toUInt64).toNat
      = d.subsecondNanos.toNat * factor.toNat := by
  rw [UInt64.toNat_mul, UInt32.toNat_toUInt64, UInt32.toNat_toUInt64]
  refine Nat.mod_eq_of_lt ?_
  calc d.subsecondNanos.toNat * factor.toNat
      < 1000000000 * 2 ^ 32 := Nat.mul_lt_mul'' d.subsecondNanos_lt factor.toNat_lt
    _ < 2 ^ 64 := by decide

/-- A span that is taken a number of times is exact: what the nanoseconds beyond the seconds make in
whole seconds is carried over, and the rest is left to them.
-/
theorem nanos_of_times? (taken : d.times? factor = some t)
    : t.nanos = d.nanos * factor.toNat := by
  obtain ⟨product, multiplied, taken⟩ := Option.bind_eq_some_iff.mp taken
  obtain ⟨sum, added, taken⟩ := Option.bind_eq_some_iff.mp taken
  cases taken
  have product := Word.toNat_of_mul? multiplied
  have sum := Word.toNat_of_add? added
  have rest := Nat.mod_lt (d.subsecondNanos.toNat * factor.toNat) (show 0 < 1000000000 by decide)
  simp only [UInt32.toNat_toUInt64] at product
  simp only [UInt64.toNat_div, toNat_subsecondNanos_mul, UInt64.reduceToNat, product] at sum
  simp only [nanos, sum, UInt64.toNat_toUInt32, UInt64.toNat_mod, toNat_subsecondNanos_mul,
    UInt64.reduceToNat, Nat.add_mul]
  rw [Nat.mod_eq_of_lt (Nat.lt_trans rest (by decide)), Nat.mul_right_comm, Nat.add_assoc,
    Nat.div_add_mod']

/-- If there is no such span, it would be longer than the longest one. -/
theorem longest_lt_of_times?_eq_none (missing : d.times? factor = none)
    : longest.nanos < d.nanos * factor.toNat := by
  have exact := d.toNat_subsecondNanos_mul factor
  rw [show longest.nanos = 2 ^ 64 * 1000000000 - 1 from rfl, nanos, Nat.add_mul,
    Nat.mul_right_comm]
  cases multiplied : Word.mul? d.seconds factor.toUInt64 with
  | none =>
      have large := Word.le_of_mul?_eq_none multiplied
      rw [UInt32.toNat_toUInt64] at large
      omega
  | some product =>
      cases added
          : Word.add? product (d.subsecondNanos.toUInt64 * factor.toUInt64 / 1000000000) with
      | none =>
          have large := Word.le_of_add?_eq_none added
          rw [UInt64.toNat_div, exact, Word.toNat_of_mul? multiplied,
            UInt32.toNat_toUInt64] at large
          simp only [UInt64.reduceToNat] at large
          omega
      | some sum => simp [times?, multiplied, added] at missing

/-- A span taken a number of times is exact up to the longest one. -/
theorem nanos_times (d : Duration) (factor : UInt32)
    : (d.times factor).nanos = min (d.nanos * factor.toNat) longest.nanos := by
  unfold times
  cases taken : d.times? factor with
  | none => exact (Nat.min_eq_right (Nat.le_of_lt (longest_lt_of_times?_eq_none taken))).symm
  | some t =>
      rw [Option.getD_some, ← nanos_of_times? taken]
      exact (Nat.min_eq_left (le_iff_nanos.mp t.le_longest)).symm

end Duration

-----------------------------------------------------------------------------------------
-- Pauses
-----------------------------------------------------------------------------------------

namespace RetryPolicy

/-- As many doublings as there can be fit the word that counts them. -/
theorem toNat_doublings {n : Nat} (few : n ≤ greatestDoubling)
    : (1 <<< UInt32.ofNat n : UInt32).toNat = 2 ^ n := by
  have below : n < 32 := Nat.lt_of_le_of_lt few (by decide)
  rw [UInt32.toNat_shiftLeft, UInt32.toNat_ofNat', Nat.mod_eq_of_lt (by omega : n < 2 ^ 32),
    Nat.mod_eq_of_lt below, UInt32.toNat_one, Nat.one_shiftLeft]
  exact Nat.mod_eq_of_lt (Nat.pow_lt_pow_right (by decide) below)

/-- The pause after an attempt is the base, doubled once for each attempt after the first one and at
most sixteen times, or the longest span if that is shorter. So a later attempt and a longer base
never make the pause shorter.
-/
theorem backoff_exact (p : RetryPolicy) (attempt : Nat)
    : (p.backoff attempt).nanos
        = min (p.baseBackoff.nanos * 2 ^ min (max attempt 1 - 1) 16) Duration.longest.nanos
      ∧ (p.backoff attempt).subsecondNanos.toNat < 1000000000
      ∧ (∀ d : Duration, d ≤ Duration.longest)
      ∧ (∀ later, attempt ≤ later → p.backoff attempt ≤ p.backoff later)
      ∧ ∀ q : RetryPolicy,
          p.baseBackoff ≤ q.baseBackoff → p.backoff attempt ≤ q.backoff attempt := by
  have exact : ∀ (p : RetryPolicy) (attempt : Nat),
      (p.backoff attempt).nanos
        = min (p.baseBackoff.nanos * 2 ^ min (attempt - 1) 16) Duration.longest.nanos := by
    intro p attempt
    rw [backoff, Duration.nanos_times, toNat_doublings (Nat.min_le_right _ _)]
    rfl
  refine ⟨?_, (p.backoff attempt).subsecondNanos_lt, Duration.le_longest, ?_, ?_⟩
  · rw [exact, show max attempt 1 - 1 = attempt - 1 by omega]
  · intro later le
    rw [Duration.le_iff_nanos, exact, exact]
    have doublings : 2 ^ min (attempt - 1) 16 ≤ 2 ^ min (later - 1) 16 :=
      Nat.pow_le_pow_right (by decide) (by omega)
    have longer := Nat.mul_le_mul_left p.baseBackoff.nanos doublings
    omega
  · intro q le
    rw [Duration.le_iff_nanos, exact, exact]
    have longer := Nat.mul_le_mul_right (2 ^ min (attempt - 1) 16) (Duration.le_iff_nanos.mp le)
    omega

end RetryPolicy

namespace Sample

/-- The longest base whose sixteenth doubling is a span, to the nanosecond. -/
def longestBase : RetryPolicy :=
  { baseBackoff := { Duration.longest with seconds := 0xFFFFFFFFFFFF } }

/-- A base that is longer by one nanosecond. -/
def tooLongBase : RetryPolicy :=
  { baseBackoff := { Duration.zero with seconds := 0x1000000000000 } }

/-- The carry takes the seconds to the end of their word, and one nanosecond more beyond it. -/
theorem pause_at_limit
    : longestBase.backoff 17 = ⟨0xFFFFFFFFFFFFFFFF, 999934464, by decide⟩
      ∧ tooLongBase.backoff 17 = Duration.longest
      ∧ longestBase.backoff 17 ≤ tooLongBase.backoff 17
      ∧ longestBase.backoff 17 ≤ longestBase.backoff 4294967295 := by
  have base : longestBase.baseBackoff ≤ tooLongBase.baseBackoff := .inl (by decide)
  obtain ⟨_, _, _, later, longer⟩ := longestBase.backoff_exact 17
  exact ⟨by decide, by decide, longer tooLongBase base, later 4294967295 (by decide)⟩

end Sample

end CaseGrouping
