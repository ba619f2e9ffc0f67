import CaseGrouping.Proofs.Register
import CaseGrouping.Store.Multiples
import Mathlib.Data.List.Nodup
import Mathlib.Data.List.Perm.Subperm

/-! Allocated references. The numbers that references are made of only ever go up, and no more of
them are passed over than there are records, so a reference that is given out is neither stored nor
given out before.
-/

namespace CaseGrouping

-----------------------------------------------------------------------------------------
-- Numbers and their digits
-----------------------------------------------------------------------------------------

/-- Leading zeros do not change the number that digits stand for. -/
theorem Text.ofDigitChars_padNatural (width n : Nat)
    : Nat.ofDigitChars 10 (padNatural width n) 0 = n := by
  have zeros : ∀ k, Nat.ofDigitChars 10 (List.replicate k '0') 0 = 0 := by
    intro k
    induction k with
    | zero => rfl
    | succ k ih => exact ih
  rw [padNatural, Nat.ofDigitChars_append, zeros, Nat.ofDigitChars_ten_toDigits]

/-- References of an office are told apart by their sequence numbers. -/
theorem Reference.ofSequence_inj {office n m : Nat}
    (same : ofSequence office n = ofSequence office m)
    : n = m := by
  have texts : sequenceChars office n = sequenceChars office m := by
    have := congrArg (fun r : MultipleReference => r.text.toList) same
    simpa [ofSequence] using this
  have digits := List.append_cancel_left texts
  rw [← Text.ofDigitChars_padNatural 5 n, digits, Text.ofDigitChars_padNatural]

-----------------------------------------------------------------------------------------
-- Sequence numbers
-----------------------------------------------------------------------------------------

namespace MultipleStore

variable {s t : MultipleStore} {r : MultipleReference}

/-- Different numbers whose references are stored are no more than there are records. -/
theorem length_le_size {office : Nat} {numbers : List Nat} (distinct : numbers.Nodup)
    (stored : ∀ n ∈ numbers, s.records.contains (.ofSequence office n))
    : numbers.length ≤ s.records.size := by
  have keys : numbers.map (Reference.ofSequence office) ⊆ s.records.keys := by
    intro r member
    obtain ⟨n, listed, rfl⟩ := List.mem_map.mp member
    obtain ⟨m, found⟩ := Option.isSome_iff_exists.mp (stored n listed)
    exact List.mem_map.mpr ⟨_, Register.get?_eq_some_iff.mp found, rfl⟩
  have apart : (numbers.map (Reference.ofSequence office)).Nodup :=
    (List.nodup_map_iff fun _ _ => Reference.ofSequence_inj).mpr distinct
  have count := (List.subperm_of_subset apart keys).length_le
  rwa [List.length_map, Register.keys, List.length_map] at count

/-- The next number comes after numbers whose references are stored; it is free itself, unless all
steps have been taken. By induction on the steps.
-/
theorem nextSequence_passes (s : MultipleStore) (steps n : Nat)
    : ∃ passed,
        s.nextSequence steps n = n + passed + 1
        ∧ (∀ i < passed, s.records.contains (.ofSequence s.office (n + i + 1)))
        ∧ (passed = steps ∨ ¬ s.records.contains (.ofSequence s.office (n + passed + 1))) := by
  induction steps generalizing n with
  | zero => exact ⟨0, rfl, fun i none => by omega, .inl rfl⟩
  | succ steps ih =>
      unfold nextSequence
      split
      next stored =>
        obtain ⟨passed, next, before, ends⟩ := ih (n + 1)
        have shift : ∀ i, n + 1 + i = n + (i + 1) := by omega
        refine ⟨passed + 1, by rw [next, shift], fun i within => ?_, ?_⟩
        · cases i with
          | zero => exact stored
          | succ i =>
              have earlier := before i (by omega)
              rwa [shift] at earlier
        · rw [shift] at ends
          exact ends.imp_left (congrArg Nat.succ)
      next free => exact ⟨0, rfl, fun i none => by omega, .inr free⟩

/-- The next number depends on the records and the office only. -/
theorem nextSequence_congr (records : t.records = s.records) (office : t.office = s.office)
    (steps n : Nat)
    : t.nextSequence steps n = s.nextSequence steps n := by
  induction steps generalizing n with
  | zero => rfl
  | succ steps ih => rw [nextSequence, nextSequence, records, office, ih]

-----------------------------------------------------------------------------------------
-- References that are given out
-----------------------------------------------------------------------------------------

/-- A reference that is given out has the number that the store then remembers, and this is higher
than the one before.
-/
theorem allocate_eq_ok (allocated : s.allocate.1 = .ok r)
    : s.allocateFault = none
      ∧ r = .ofSequence s.office s.allocate.2.sequence
      ∧ s.sequence < s.allocate.2.sequence
      ∧ s.allocate.2 = { s with sequence := s.allocate.2.sequence } := by
  unfold allocate at allocated ⊢
  split at allocated
  · cases allocated
  next free =>
    obtain ⟨passed, next, _⟩ := s.nextSequence_passes s.records.size s.sequence
    refine ⟨free, (Except.ok.inj allocated).symm, ?_, rfl⟩
    change s.sequence < s.nextSequence s.records.size s.sequence
    omega

/-- What is given out depends on the records, the office, the last number and the fault only. -/
theorem allocate_congr (records : t.records = s.records) (office : t.office = s.office)
    (sequence : t.sequence = s.sequence) (fault : t.allocateFault = s.allocateFault)
    : t.allocate.1 = s.allocate.1 := by
  unfold allocate
  rw [fault]
  split
  · rfl
  · rw [nextSequence_congr records office, records, office, sequence]

/-- Without a fault some reference is given out. -/
theorem exists_allocated (free : s.allocateFault = none) : ∃ r, s.allocate.1 = .ok r := by
  unfold allocate
  rw [free]
  exact ⟨_, rfl⟩

/-- No record is stored under a reference that is given out: otherwise more numbers than there are
records would have been passed over.
-/
theorem get?_of_allocated (allocated : s.allocate.1 = .ok r) : s.records.get? r = none := by
  unfold allocate at allocated
  split at allocated
  · cases allocated
  obtain ⟨passed, next, before, ends⟩ := s.nextSequence_passes s.records.size s.sequence
  have given : Reference.ofSequence s.office (s.sequence + passed + 1) = r := by
    rw [← next]
    exact Except.ok.inj allocated
  refine Option.not_isSome_iff_eq_none.mp fun stored => ?_
  rw [← given] at stored
  have all := ends.resolve_right fun free => free stored
  let numbers := (List.range (passed + 1)).map fun i => s.sequence + i + 1
  have distinct : numbers.Nodup :=
    (List.nodup_map_iff fun i j same => by omega).mpr List.nodup_range
  have taken : ∀ n ∈ numbers, s.records.contains (.ofSequence s.office n) := by
    intro n listed
    obtain ⟨i, within, rfl⟩ := List.mem_map.mp listed
    rcases Nat.lt_succ_iff_lt_or_eq.mp (List.mem_range.mp within) with earlier | rfl
    · exact before i earlier
    · exact stored
  have count := length_le_size distinct taken
  have length : numbers.length = passed + 1 := by simp [numbers]
  omega

/-- What is given out next differs from what was given out before. -/
theorem allocate_again {q : MultipleReference} (allocated : s.allocate.1 = .ok r)
    (office : t.office = s.office) (sequence : s.allocate.2.sequence ≤ t.sequence)
    (next : t.allocate.1 = .ok q)
    : q ≠ r := by
  obtain ⟨_, first, _⟩ := allocate_eq_ok allocated
  obtain ⟨_, second, later, _⟩ := allocate_eq_ok next
  rintro rfl
  rw [first, office] at second
  have := Reference.ofSequence_inj second
  omega

end MultipleStore

end CaseGrouping
