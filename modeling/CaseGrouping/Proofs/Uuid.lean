import CaseGrouping.Uuid
import CaseGrouping.Proofs.Json.Reading

/-! Identifiers are read from their texts: the digits give the number back, and hyphens are taken
out where they were put in.
-/

namespace CaseGrouping.Uuid

/-- Each digit of a number is read as its value, by induction on the places. -/
theorem mapM_hexValue? (n : Nat) (places : List Nat)
    : (places.map fun i => Nat.digitChar (n / 16 ^ i % 16)).mapM Json.Draft.hexValue?
      = some (places.map fun i => n / 16 ^ i % 16) := by
  induction places with
  | nil => rfl
  | cons i places ih =>
      have digit := Json.Draft.hexValue?_digitChar (n / 16 ^ i % 16) (Nat.mod_lt _ (by omega))
      simp [List.mapM_cons, digit, ih]

/-- The last k digits of a number make it up again as far as they reach, by induction on k. -/
theorem foldl_digits (n k : Nat)
    : ((List.range k).map fun i => n / 16 ^ (k - 1 - i) % 16).foldl (· * 16 + ·) 0
      = n % 16 ^ k := by
  induction k generalizing n with
  | zero => simp [Nat.mod_one]
  | succ k ih =>
      have shift : (List.range k).map (fun i => n / 16 ^ (k - i) % 16)
          = (List.range k).map fun i => n / 16 / 16 ^ (k - 1 - i) % 16 := by
        refine List.map_congr_left fun i member => ?_
        have less := List.mem_range.mp member
        rw [show k - i = (k - 1 - i) + 1 by omega, Nat.pow_succ', Nat.div_div_eq_div_mul]
      rw [List.range_succ, List.map_append, List.foldl_append]
      simp only [Nat.add_sub_cancel, shift, ih, List.map_singleton, Nat.sub_self, Nat.pow_zero,
        Nat.div_one, List.foldl_cons, List.foldl_nil]
      rw [Nat.pow_succ', Nat.mod_mul]
      omega

theorem ofDigits?_digits (u : Uuid) : ofDigits? u.digits = some u := by
  have bound : u.value.toNat < 16 ^ 32 := u.value.isLt
  have number := foldl_digits u.value.toNat 32
  rw [Nat.mod_eq_of_lt bound] at number
  have values := mapM_hexValue? u.value.toNat ((List.range 32).map (31 - ·))
  rw [List.map_map, List.map_map] at values
  have digits : u.digits.mapM Json.Draft.hexValue?
      = some ((List.range 32).map fun i => u.value.toNat / 16 ^ (32 - 1 - i) % 16) := values
  have whole : ¬ u.digits.length ≠ 32 := by simp [Uuid.digits]
  have same : (⟨BitVec.ofNat 128 u.value.toNat⟩ : Uuid) = u :=
    congrArg Uuid.mk (by simp)
  rw [← number] at same
  rw [ofDigits?, if_neg whole, digits]
  exact congrArg some same

/-- An identifier is read from its own text. -/
theorem ofText?_text (u : Uuid) : ofText? u.text = some u := by
  have taken : u.text.toList = hyphenate u.digits := String.toList_ofList
  have length : (hyphenate u.digits).length = 36 := rfl
  have digits : (hyphenate u.digits).take 8 ++ ((hyphenate u.digits).drop 9).take 4
      ++ ((hyphenate u.digits).drop 14).take 4 ++ ((hyphenate u.digits).drop 19).take 4
      ++ (hyphenate u.digits).drop 24
      = u.digits := rfl
  simp only [ofText?, taken, length, ofHyphenated?, digits, if_true]
  exact ofDigits?_digits u

end CaseGrouping.Uuid
