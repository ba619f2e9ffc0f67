import CaseGrouping.Proofs.Decimal.Neighbourhoods

/-! The shortest decimal of a binary number lies in its neighbourhood: seventeen digits are enough,
since their grid is finer than the neighbourhood is wide.
-/

namespace CaseGrouping.Decimal

-----------------------------------------------------------------------------------------
-- The first digit
-----------------------------------------------------------------------------------------

theorem lt_pow_length_toDigits (n : Nat) : n < 10 ^ (Nat.toDigits 10 n).length :=
  (Nat.length_toDigits_le_iff (by omega) Nat.length_toDigits_pos).mp le_rfl

theorem pow_length_toDigits_le {n : Nat} (positive : 0 < n)
    : 10 ^ ((Nat.toDigits 10 n).length - 1) ≤ n := by
  by_contra less
  have length := Nat.length_toDigits_pos (b := 10) (n := n)
  by_cases single : (Nat.toDigits 10 n).length = 1
  · rw [single] at less
    omega
  · have shorter : (Nat.toDigits 10 n).length ≤ (Nat.toDigits 10 n).length - 1 :=
      (Nat.length_toDigits_le_iff (by omega) (by omega)).mpr (by omega)
    omega

/-- The first digit of a fraction is not placed too high. -/
theorem ten_zpow_leadingPower_le {num den : Nat} (positive : 0 < num) (positive' : 0 < den)
    : (10 : ℚ) ^ leadingPower num den ≤ num / den := by
  have num_pos : (0 : ℚ) < num := by exact_mod_cast positive
  have den_pos : (0 : ℚ) < den := by exact_mod_cast positive'
  rw [le_div_iff₀ den_pos]
  unfold leadingPower
  split
  next whole =>
    have length := Nat.length_toDigits_pos (b := 10) (n := num / den)
    have power : (((Nat.toDigits 10 (num / den)).length : ℤ) - 1)
        = ((Nat.toDigits 10 (num / den)).length - 1 : ℕ) := by omega
    rw [power, zpow_natCast]
    have digits := pow_length_toDigits_le (Nat.div_pos whole positive')
    exact_mod_cast (Nat.mul_le_mul_right den digits).trans (Nat.div_mul_le_self num den)
  next fraction =>
    -- The quotient den / num, rounded up, is not above the next power of ten.
    have digits := lt_pow_length_toDigits ((num - 1 + den) / num - 1)
    generalize (Nat.toDigits 10 ((num - 1 + den) / num - 1)).length = length at digits ⊢
    have rounded : den ≤ (num - 1 + den) / num * num := by
      have := Nat.lt_div_mul_add (a := num - 1 + den) positive
      omega
    have enough : den ≤ 10 ^ length * num :=
      rounded.trans (Nat.mul_le_mul_right num (by omega))
    rw [zpow_neg, zpow_natCast, inv_mul_le_iff₀ (by positivity)]
    exact_mod_cast enough

-----------------------------------------------------------------------------------------
-- The search
-----------------------------------------------------------------------------------------

namespace Neighbourhood

variable {n : Neighbourhood}

theorem holds_of_onGrid {power : Int} {d : Scaled} (hit : n.onGrid power = some d)
    : n.holds d = true := by
  simp only [onGrid] at hit
  split at hit
  next lower upper =>
    split at hit
    · cases hit
      exact lower
    · split at hit
      · cases hit
        exact upper
      · split at hit <;> cases hit
        · exact lower
        · exact upper
  next lower _ =>
    cases hit
    exact lower
  next _ upper =>
    cases hit
    exact upper
  · cases hit

/-- A grid hits when one of the neighbours of the number on it is held. -/
theorem onGrid_isSome {power : Int} {k : Nat}
    (neighbour : k = (timesPower n.num n.den (-power)).1 / (timesPower n.num n.den (-power)).2)
    (held : n.holds ⟨k, power⟩ = true ∨ n.holds ⟨k + 1, power⟩ = true)
    : (n.onGrid power).isSome := by
  subst neighbour
  simp only [onGrid]
  split
  · split
    · rfl
    · split
      · rfl
      · split <;> rfl
  · rfl
  · rfl
  next lower upper => simp [lower, upper] at held

/-- What a search finds is held, by induction on the fuel. -/
theorem holds_of_search {leading : Int} {fuel count : Nat} {d : Scaled}
    (found : n.search leading fuel count = some d)
    : n.holds d = true := by
  induction fuel generalizing count with
  | zero => cases found
  | succ fuel ih =>
      unfold search at found
      split at found
      next hit =>
        cases found
        exact holds_of_onGrid hit
      · exact ih found

/-- A search that comes to a grid that hits finds a decimal, by induction on the fuel. -/
theorem search_isSome {leading : Int} {fuel count k : Nat} (within : count ≤ k)
    (enough : k < count + fuel) (hit : (n.onGrid (leading - k)).isSome)
    : (n.search leading fuel count).isSome := by
  induction fuel generalizing count with
  | zero => omega
  | succ fuel ih =>
      unfold search
      split
      · rfl
      next miss =>
        have later : count ≠ k := by
          rintro rfl
          rw [miss] at hit
          cases hit
        exact ih (by omega) (by omega)

end Neighbourhood

-----------------------------------------------------------------------------------------
-- The finest grid
-----------------------------------------------------------------------------------------

/-- The significand has at most fifty-three bits. -/
theorem significandOf_lt (a : Nat) : significandOf a < 2 ^ 53 := by
  unfold significandOf
  split <;> omega

theorem significandOf_pos {a : Nat} (positive : 0 < a) : 0 < significandOf a := by
  unfold significandOf
  split <;> omega

/-- A number lies between the midpoints around it. -/
theorem between_midpoints {a : Nat} (positive : 0 < a)
    : midpoint (a - 1) < 2 * significandOf a * 2 ^ levelOf a
      ∧ 2 * significandOf a * 2 ^ levelOf a < midpoint a := by
  obtain ⟨b, rfl⟩ : ∃ b, a = b + 1 := ⟨a - 1, by omega⟩
  have least := significandOf_pos positive
  have unit : 0 < 2 ^ levelOf (b + 1) := Nat.pow_pos (by omega)
  have twice : 2 * midpoint b < 4 * significandOf (b + 1) * 2 ^ levelOf (b + 1) := by
    by_cases narrow : narrowAt (b + 1)
    · rw [(two_mul_midpoint b).1 narrow]
      exact Nat.mul_lt_mul_of_pos_right (by omega) unit
    · rw [(two_mul_midpoint b).2 narrow]
      exact Nat.mul_lt_mul_of_pos_right (by omega) unit
  refine ⟨?_, Nat.mul_lt_mul_of_pos_right (by omega) unit⟩
  rw [Nat.add_sub_cancel]
  refine Nat.lt_of_mul_lt_mul_left (a := 2) (twice.trans_eq ?_)
  ring

/-- The part of a number by which a grid has to be finer is less than the distance of the midpoints
around it.
-/
theorem lt_midpoint_sub {a : Nat} (positive : 0 < a)
    : (2 * significandOf a * 2 ^ levelOf a : ℚ) / 10 ^ 16 < midpoint a - midpoint (a - 1) := by
  obtain ⟨b, rfl⟩ : ∃ b, a = b + 1 := ⟨a - 1, by omega⟩
  have least := significandOf_pos positive
  have unit : (0 : ℚ) < 2 ^ levelOf (b + 1) := by positivity
  have above : (midpoint (b + 1) : ℚ)
      = (2 * significandOf (b + 1) + 1) * 2 ^ levelOf (b + 1) := by
    unfold midpoint
    push_cast
    rfl
  have below : ∀ c ≤ 4 * significandOf (b + 1),
      2 * midpoint b = (4 * significandOf (b + 1) - c) * 2 ^ levelOf (b + 1)
      → (2 * midpoint b : ℚ) = (4 * significandOf (b + 1) - c) * 2 ^ levelOf (b + 1) := by
    intro c within same
    have same := congrArg (Nat.cast (R := ℚ)) same
    push_cast [Nat.cast_sub within] at same
    exact same
  rw [Nat.add_sub_cancel, above, div_lt_iff₀ (by norm_num)]
  generalize (2 : ℚ) ^ levelOf (b + 1) = u at unit below
  by_cases narrow : narrowAt (b + 1)
  · have below := below 1 (by omega) ((two_mul_midpoint b).1 narrow)
    rw [narrow.1] at below ⊢
    push_cast at below ⊢
    linarith
  · have below := below 2 (by omega) ((two_mul_midpoint b).2 narrow)
    have most : (significandOf (b + 1) : ℚ) ≤ 2 ^ 53 := by
      exact_mod_cast (significandOf_lt (b + 1)).le
    have product := mul_le_mul_of_nonneg_right most unit.le
    push_cast at below
    linarith

namespace Neighbourhood

variable {x : Binary64}

theorem number_between (positive : 0 < x.magnitude)
    : (midpoint (x.magnitude - 1) * halfStep : ℚ)
          < 2 * significandOf x.magnitude * 2 ^ levelOf x.magnitude * halfStep
      ∧ (2 * significandOf x.magnitude * 2 ^ levelOf x.magnitude * halfStep : ℚ)
        < midpoint x.magnitude * halfStep := by
  obtain ⟨before, after⟩ := between_midpoints positive
  exact ⟨mul_lt_mul_of_pos_right (by exact_mod_cast before) halfStep_pos,
    mul_lt_mul_of_pos_right (by exact_mod_cast after) halfStep_pos⟩

/-- A grid that is finer than the midpoints around a number are apart hits: the decimal below the
number is held, or else the next one is.
-/
theorem onGrid_isSome_of_fine {power : Int} (positive : 0 < x.magnitude)
    (fine
      : (10 : ℚ) ^ power
        < midpoint x.magnitude * halfStep - midpoint (x.magnitude - 1) * halfStep)
    : ((of x).onGrid power).isSome := by
  have den := timesPower_pos (of x).num (-power) (of_den_pos x)
  have quotient := timesPower_value (of x).num (of x).den (-power)
  refine onGrid_isSome rfl ?_
  generalize (timesPower (of x).num (of x).den (-power)).1 = num' at quotient ⊢
  generalize (timesPower (of x).num (of x).den (-power)).2 = den' at den quotient ⊢
  have step : (0 : ℚ) < 10 ^ power := by positivity
  have den_pos : (0 : ℚ) < den' := by exact_mod_cast den
  rw [of_num, zpow_neg, ← div_eq_mul_inv, div_eq_div_iff den_pos.ne' step.ne'] at quotient
  obtain ⟨before, after⟩ := number_between positive
  generalize (2 * significandOf x.magnitude * 2 ^ levelOf x.magnitude * halfStep : ℚ) = number
    at quotient before after
  have floor : ((num' / den' : ℕ) : ℚ) * den' ≤ num' := by
    exact_mod_cast Nat.div_mul_le_self num' den'
  have ceiling : (num' : ℚ) < ((num' / den' : ℕ) + 1) * den' := by
    have := Nat.lt_div_mul_add (a := num') den
    rw [add_mul, one_mul]
    exact_mod_cast this
  have lower : ((num' / den' : ℕ) : ℚ) * 10 ^ power ≤ number := by
    refine le_of_mul_le_mul_right ?_ den_pos
    rw [← quotient, mul_right_comm]
    exact mul_le_mul_of_nonneg_right floor step.le
  have upper : number < ((num' / den' : ℕ) + 1) * 10 ^ power := by
    refine lt_of_mul_lt_mul_right ?_ den_pos.le
    rw [← quotient, mul_right_comm]
    exact mul_lt_mul_of_pos_right ceiling step
  by_cases inside : (midpoint (x.magnitude - 1) * halfStep : ℚ)
      < ((num' / den' : ℕ) : ℚ) * 10 ^ power
  · exact .inl (holds_of_between positive inside (lower.trans_lt after))
  · refine .inr (holds_of_between positive ?_ ?_)
    · simp only [Scaled.value, Nat.cast_add, Nat.cast_one]
      exact before.trans upper
    · simp only [Scaled.value, Nat.cast_add, Nat.cast_one, add_mul, one_mul]
      linarith

end Neighbourhood

/-- Seventeen digits are enough, so the shortest decimal is held. -/
theorem holds_shortest {x : Binary64} (positive : 0 < x.magnitude)
    : (Neighbourhood.of x).holds (shortest x) = true := by
  let n := Neighbourhood.of x
  have den : 0 < n.den := Neighbourhood.of_den_pos x
  have number := Neighbourhood.of_num x
  have num : 0 < n.num := by
    refine Nat.pos_of_ne_zero fun zero => ?_
    have significand : (0 : ℚ) < significandOf x.magnitude := by
      exact_mod_cast significandOf_pos positive
    have unit := halfStep_pos
    have : (0 : ℚ) < 2 * significandOf x.magnitude * 2 ^ levelOf x.magnitude * halfStep := by
      positivity
    rw [← number, show (Neighbourhood.of x).num = 0 from zero, Nat.cast_zero, zero_div] at this
    exact lt_irrefl _ this
  have leading := ten_zpow_leadingPower_le num den
  have fine : (10 : ℚ) ^ (leadingPower n.num n.den - (16 : ℕ))
      < midpoint x.magnitude * halfStep - midpoint (x.magnitude - 1) * halfStep := by
    rw [number] at leading
    rw [zpow_sub₀ (by norm_num), zpow_natCast]
    calc (10 : ℚ) ^ leadingPower n.num n.den / 10 ^ 16
        ≤ 2 * significandOf x.magnitude * 2 ^ levelOf x.magnitude * halfStep / 10 ^ 16 :=
          div_le_div_of_nonneg_right leading (by norm_num)
      _ = 2 * significandOf x.magnitude * 2 ^ levelOf x.magnitude / 10 ^ 16 * halfStep := by ring
      _ < (midpoint x.magnitude - midpoint (x.magnitude - 1)) * halfStep :=
          mul_lt_mul_of_pos_right (lt_midpoint_sub positive) halfStep_pos
      _ = _ := sub_mul _ _ _
  have found : (n.search (leadingPower n.num n.den) 17 0).isSome :=
    Neighbourhood.search_isSome (Nat.zero_le 16) (by omega)
      (Neighbourhood.onGrid_isSome_of_fine positive fine)
  obtain ⟨d, found⟩ := Option.isSome_iff_exists.mp found
  have hit := Neighbourhood.holds_of_search found
  rwa [shortest, found, Option.getD_some]

end CaseGrouping.Decimal
