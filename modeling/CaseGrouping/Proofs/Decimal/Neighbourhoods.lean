import Mathlib.Algebra.Order.Field.Power
import Mathlib.Tactic.FieldSimp
import Mathlib.Tactic.Linarith
import Mathlib.Tactic.Positivity
import Mathlib.Tactic.Ring
import CaseGrouping.Decimal.Shortest

/-! The neighbourhoods of different binary numbers have no decimal in common. Their end points are
the midpoints between neighbours, and of two neighbours only the one with the even significand
includes the midpoint.
-/

namespace CaseGrouping.Decimal

-----------------------------------------------------------------------------------------
-- Decimals and fractions as rational numbers
-----------------------------------------------------------------------------------------

/-- The number that a decimal stands for. -/
def Scaled.value (d : Scaled) : ℚ :=
  d.digits * 10 ^ d.exponent

/-- A fraction that is multiplied by a power of ten stays a fraction. -/
theorem timesPower_pos (num : Nat) {den : Nat} (power : Int) (positive : 0 < den)
    : 0 < (timesPower num den power).2 := by
  unfold timesPower
  split
  · exact positive
  · exact Nat.mul_pos positive (Nat.pow_pos (by omega))

theorem timesPower_value (num den : Nat) (power : Int)
    : ((timesPower num den power).1 / (timesPower num den power).2 : ℚ)
      = num / den * 10 ^ power := by
  unfold timesPower
  split
  next nonneg =>
    obtain ⟨k, rfl⟩ := Int.eq_ofNat_of_zero_le nonneg
    simp only [Int.toNat_natCast, zpow_natCast]
    push_cast
    ring
  next negative =>
    obtain ⟨k, rfl⟩ : ∃ k : Nat, power = -k := ⟨(-power).toNat, by omega⟩
    simp only [neg_neg, Int.toNat_natCast, zpow_neg, zpow_natCast]
    push_cast
    rw [← div_eq_mul_inv, div_div]

/-- A decimal lies in an interval as far as its value does. -/
theorem Neighbourhood.holds_iff {n : Neighbourhood} (positive : 0 < n.den) (d : Scaled)
    : n.holds d = true
      ↔ if n.closed then (n.below / n.den : ℚ) ≤ d.value ∧ d.value ≤ n.above / n.den
        else (n.below / n.den : ℚ) < d.value ∧ d.value < n.above / n.den := by
  have unit : 0 < (timesPower d.digits 1 d.exponent).2 :=
    timesPower_pos d.digits d.exponent (by omega)
  have value : d.value = (timesPower d.digits 1 d.exponent).1
      / (timesPower d.digits 1 d.exponent).2 := by
    rw [timesPower_value, Nat.cast_one, div_one, Scaled.value]
  rw [value]
  unfold holds
  generalize timesPower d.digits 1 d.exponent = fraction at unit ⊢
  obtain ⟨v, u⟩ := fraction
  have unit : (0 : ℚ) < u := by exact_mod_cast unit
  have positive : (0 : ℚ) < n.den := by exact_mod_cast positive
  dsimp only
  split
  · rw [Bool.and_eq_true, decide_eq_true_iff, decide_eq_true_iff,
      div_le_div_iff₀ positive unit, div_le_div_iff₀ unit positive]
    exact_mod_cast Iff.rfl
  · rw [Bool.and_eq_true, decide_eq_true_iff, decide_eq_true_iff,
      div_lt_div_iff₀ positive unit, div_lt_div_iff₀ unit positive]
    exact_mod_cast Iff.rfl

-----------------------------------------------------------------------------------------
-- Midpoints between neighbours
-----------------------------------------------------------------------------------------

/-- The significand of the numbers with a magnitude. -/
def significandOf (a : Nat) : Nat :=
  if a < 2 ^ 52 then a else a % 2 ^ 52 + 2 ^ 52

/-- How far the exponent of the numbers with a magnitude is above the least one. -/
def levelOf (a : Nat) : Nat :=
  if a < 2 ^ 52 then 0 else a / 2 ^ 52 - 1

/-- Below the magnitude the steps are half as wide as above it. -/
def narrowAt (a : Nat) : Prop :=
  significandOf a = 2 ^ 52 ∧ levelOf a ≠ 0

/-- The next magnitude has the next significand, or the least one of the next level. -/
theorem magnitude_succ (a : Nat)
    : (levelOf (a + 1) = levelOf a ∧ significandOf (a + 1) = significandOf a + 1
        ∧ ¬ narrowAt (a + 1))
      ∨ (levelOf (a + 1) = levelOf a + 1 ∧ significandOf (a + 1) = 2 ^ 52
        ∧ significandOf a = 2 ^ 53 - 1) := by
  unfold narrowAt levelOf significandOf
  split <;> split <;> omega

/-- The midpoint between a magnitude and the next one, in halves of the least step. -/
def midpoint (a : Nat) : Nat :=
  (2 * significandOf a + 1) * 2 ^ levelOf a

theorem midpoint_lt_succ (a : Nat) : midpoint a < midpoint (a + 1) := by
  unfold midpoint
  rcases magnitude_succ a with ⟨level, next, _⟩ | ⟨level, least, greatest⟩
  · rw [level, next]
    exact Nat.mul_lt_mul_of_pos_right (by omega) (Nat.pow_pos (by omega))
  · have unit : 0 < 2 ^ levelOf a := Nat.pow_pos (by omega)
    rw [level, least, greatest, pow_succ 2 (levelOf a)]
    omega

theorem strictMono_midpoint : StrictMono midpoint :=
  strictMono_nat_of_lt_succ midpoint_lt_succ

/-- The midpoint before a magnitude is a quarter or a half of a step below it. -/
theorem two_mul_midpoint (a : Nat)
    : (narrowAt (a + 1)
        → 2 * midpoint a = (4 * significandOf (a + 1) - 1) * 2 ^ levelOf (a + 1))
      ∧ (¬ narrowAt (a + 1)
        → 2 * midpoint a = (4 * significandOf (a + 1) - 2) * 2 ^ levelOf (a + 1)) := by
  unfold midpoint
  rcases magnitude_succ a with ⟨level, next, wide⟩ | ⟨level, least, greatest⟩
  · refine ⟨fun narrow => absurd narrow wide, fun _ => ?_⟩
    rw [level, next, ← Nat.mul_assoc]
    congr 1
    omega
  · refine ⟨fun _ => ?_, fun wide => absurd ⟨least, by omega⟩ wide⟩
    rw [level, least, greatest, pow_succ 2 (levelOf a)]
    omega

-----------------------------------------------------------------------------------------
-- Neighbourhoods by their midpoints
-----------------------------------------------------------------------------------------

/-- Half of the least step between binary numbers. -/
def halfStep : ℚ :=
  2 ^ (-1075 : ℤ)

theorem halfStep_pos : 0 < halfStep :=
  zpow_pos (by norm_num) _

theorem Binary64.exponent_eq (x : Binary64) : x.exponent = levelOf x.magnitude - 1074 := by
  unfold exponent levelOf
  split <;> omega

/-- The step above a number. -/
theorem two_zpow_exponent (x : Binary64)
    : (2 : ℚ) ^ x.exponent = 2 * 2 ^ levelOf x.magnitude * halfStep := by
  rw [x.exponent_eq, halfStep, ← zpow_natCast, ← zpow_one_add₀ (by norm_num),
    ← zpow_add₀ (by norm_num)]
  congr 1
  ring

namespace Neighbourhood

/-- Numerators of a neighbourhood are quarters of the step above its number. -/
theorem quarters (x : Binary64) (c : Nat)
    : ((c * (if 0 ≤ x.exponent then 2 ^ x.exponent.toNat else 1) : ℕ)
        / (4 * (if 0 ≤ x.exponent then 1 else 2 ^ (-x.exponent).toNat) : ℕ) : ℚ)
      = c * 2 ^ levelOf x.magnitude / 2 * halfStep := by
  have step := two_zpow_exponent x
  split
  next nonneg =>
    obtain ⟨k, exponent⟩ := Int.eq_ofNat_of_zero_le nonneg
    rw [exponent, zpow_natCast] at step
    rw [exponent, Int.toNat_natCast]
    push_cast
    rw [step]
    ring
  next negative =>
    obtain ⟨k, exponent⟩ : ∃ k : Nat, x.exponent = -k := ⟨(-x.exponent).toNat, by omega⟩
    rw [exponent, zpow_neg, zpow_natCast] at step
    rw [exponent, neg_neg, Int.toNat_natCast]
    push_cast
    have step : (1 : ℚ) / 2 ^ k = 2 * 2 ^ levelOf x.magnitude * halfStep := by rw [← step, one_div]
    calc (c * 1 / (4 * 2 ^ k) : ℚ) = c / 4 * (1 / 2 ^ k) := by ring
      _ = _ := by rw [step]; ring

variable (x : Binary64)

theorem of_den_pos : 0 < (of x).den := by
  simp only [of]
  split <;> positivity

theorem of_num
    : ((of x).num / (of x).den : ℚ)
      = 2 * significandOf x.magnitude * 2 ^ levelOf x.magnitude * halfStep := by
  refine (quarters x (4 * significandOf x.magnitude)).trans ?_
  push_cast
  ring

theorem of_above : ((of x).above / (of x).den : ℚ) = midpoint x.magnitude * halfStep := by
  refine (quarters x (4 * significandOf x.magnitude + 2)).trans ?_
  unfold midpoint
  push_cast
  ring

theorem of_below (positive : 0 < x.magnitude)
    : ((of x).below / (of x).den : ℚ) = midpoint (x.magnitude - 1) * halfStep := by
  obtain ⟨a, magnitude⟩ : ∃ a, x.magnitude = a + 1 := ⟨x.magnitude - 1, by omega⟩
  have half : ∀ c : Nat, 2 * midpoint a = c * 2 ^ levelOf x.magnitude
      → (c * 2 ^ levelOf x.magnitude / 2 * halfStep : ℚ) = midpoint a * halfStep := by
    intro c same
    have same : (2 * midpoint a : ℚ) = c * 2 ^ levelOf x.magnitude := by exact_mod_cast same
    rw [← same]
    ring
  obtain ⟨narrow, wide⟩ := two_mul_midpoint a
  rw [← magnitude] at narrow wide
  have narrow_iff : (x.significand == 2 ^ 52 && x.exponent != -1074) = true
      ↔ narrowAt x.magnitude := by
    rw [Bool.and_eq_true, beq_iff_eq, bne_iff_ne, x.exponent_eq]
    refine and_congr_right fun _ => ?_
    omega
  rw [magnitude, Nat.add_sub_cancel]
  refine (quarters x _).trans (half _ ?_)
  split
  next h => exact narrow (narrow_iff.mp h)
  next h => exact wide (h ∘ narrow_iff.mpr)

/-- What a neighbourhood holds lies between the midpoints, which count if the significand is even.
-/
theorem between_of_holds {x : Binary64} {d : Scaled} (positive : 0 < x.magnitude)
    (held : (of x).holds d = true)
    : midpoint (x.magnitude - 1) * halfStep ≤ d.value
      ∧ d.value ≤ midpoint x.magnitude * halfStep
      ∧ (d.value = midpoint (x.magnitude - 1) * halfStep
          ∨ d.value = midpoint x.magnitude * halfStep
        → significandOf x.magnitude % 2 = 0) := by
  rw [holds_iff (of_den_pos x), of_below x positive, of_above x] at held
  split at held
  next closed => exact ⟨held.1, held.2, fun _ => beq_iff_eq.mp closed⟩
  next =>
    refine ⟨held.1.le, held.2.le, fun ends => ?_⟩
    rcases ends with ends | ends
    · exact absurd ends held.1.ne'
    · exact absurd ends held.2.ne

theorem holds_of_between {x : Binary64} {d : Scaled} (positive : 0 < x.magnitude)
    (below : midpoint (x.magnitude - 1) * halfStep < d.value)
    (above : d.value < midpoint x.magnitude * halfStep)
    : (of x).holds d = true := by
  rw [holds_iff (of_den_pos x), of_below x positive, of_above x]
  split
  · exact ⟨below.le, above.le⟩
  · exact ⟨below, above⟩

/-- Decimals in the neighbourhoods of different magnitudes are different numbers. -/
theorem value_ne_of_lt {x y : Binary64} {d e : Scaled} (positive : 0 < x.magnitude)
    (less : x.magnitude < y.magnitude) (held : (of x).holds d = true)
    (held' : (of y).holds e = true)
    : d.value ≠ e.value := by
  intro same
  obtain ⟨_, above, even⟩ := between_of_holds positive held
  obtain ⟨below, _, even'⟩ := between_of_holds (by omega) held'
  have order : midpoint x.magnitude ≤ midpoint (y.magnitude - 1) :=
    strictMono_midpoint.monotone (by omega)
  have order' : (midpoint x.magnitude * halfStep : ℚ)
      ≤ midpoint (y.magnitude - 1) * halfStep :=
    mul_le_mul_of_nonneg_right (by exact_mod_cast order) halfStep_pos.le
  -- The number can only be the midpoint between the two, which one of them does not include.
  have meet : (midpoint x.magnitude * halfStep : ℚ) = midpoint (y.magnitude - 1) * halfStep := by
    linarith
  have next : y.magnitude = x.magnitude + 1 := by
    have midpoints : (midpoint x.magnitude : ℚ) = midpoint (y.magnitude - 1) :=
      mul_right_cancel₀ halfStep_pos.ne' meet
    have := strictMono_midpoint.injective (by exact_mod_cast midpoints)
    omega
  have even := even (.inr (by linarith))
  have even' := even' (.inl (by linarith))
  rw [next] at even'
  rcases magnitude_succ x.magnitude with ⟨_, significand, _⟩ | ⟨_, _, greatest⟩ <;> omega

theorem magnitude_eq_of_holds {x y : Binary64} {d e : Scaled} (positive : 0 < x.magnitude)
    (positive' : 0 < y.magnitude) (held : (of x).holds d = true) (held' : (of y).holds e = true)
    (same : d.value = e.value)
    : x.magnitude = y.magnitude := by
  rcases Nat.lt_trichotomy x.magnitude y.magnitude with less | equal | greater
  · exact absurd same (value_ne_of_lt positive less held held')
  · exact equal
  · exact absurd same.symm (value_ne_of_lt positive' greater held' held)

/-- A neighbourhood holds positive numbers only. -/
theorem value_pos_of_holds {x : Binary64} {d : Scaled} (positive : 0 < x.magnitude)
    (held : (of x).holds d = true)
    : 0 < d.value := by
  have midpoint_pos : (0 : ℚ) < midpoint (x.magnitude - 1) := by
    exact_mod_cast Nat.mul_pos (by omega) (Nat.pow_pos (by omega))
  exact (mul_pos midpoint_pos halfStep_pos).trans_le (between_of_holds positive held).1

end Neighbourhood

end CaseGrouping.Decimal
