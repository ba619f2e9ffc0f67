import CaseGrouping.Proofs.Store.Allocation
import Mathlib.Data.List.Induction

/-! The supply of references of a store that records are seeded in and committed to. The search for
the next reference looks at one number after the other and has no bound of its own; it ends because
numbers have different references and there are finitely many records.
-/

namespace CaseGrouping

namespace MultipleStore

variable {s t : MultipleStore} {r : MultipleReference} {n steps : Nat}

-----------------------------------------------------------------------------------------
-- The search for a free reference
-----------------------------------------------------------------------------------------

/-- The reference of a number in the office of the store is that of a record. -/
def Taken (s : MultipleStore) (n : Nat) : Prop :=
  s.records.contains (.ofSequence s.office n)

/-- (s.Search n steps r) says that the search which has got to the number n ends with the reference
r after so many steps, each of which goes on to the next number.
-/
inductive Search (s : MultipleStore) : Nat → Nat → MultipleReference → Prop where
  | free {n : Nat} (free : ¬ s.Taken (n + 1)) : Search s n 1 (.ofSequence s.office (n + 1))
  | pass {n steps : Nat} {r : MultipleReference} (taken : s.Taken (n + 1))
    (rest : Search s (n + 1) steps r)
    : Search s n (steps + 1) r

/-- The search passes over numbers that are taken up to one that is not. The induction is on their
count.
-/
theorem Search.of_passed {passed : Nat} (before : ∀ i < passed, s.Taken (n + i + 1))
    (free : ¬ s.Taken (n + passed + 1))
    : s.Search n (passed + 1) (.ofSequence s.office (n + passed + 1)) := by
  induction passed generalizing n with
  | zero => exact .free free
  | succ passed ih =>
      have shift : ∀ i, n + (i + 1) + 1 = n + 1 + i + 1 := fun i => by omega
      rw [shift] at free ⊢
      refine .pass (before 0 (by omega)) (ih (fun i within => ?_) free)
      rw [← shift]
      exact before (i + 1) (by omega)

/-- The search ends with the reference that is given out, and takes at most one step more than there
are records: otherwise more numbers than these would have records.
-/
theorem allocate_search (unset : s.allocateFault = none)
    : ∃ r steps,
        s.Search s.sequence steps r
        ∧ steps ≤ s.records.size + 1
        ∧ s.allocate = (.ok r, { s with sequence := s.sequence + steps }) := by
  obtain ⟨r, allocated⟩ := exists_allocated unset
  have unstored := get?_of_allocated allocated
  obtain ⟨passed, next, before, _⟩ := s.nextSequence_passes s.records.size s.sequence
  obtain ⟨_, given, _, after⟩ := allocate_eq_ok allocated
  have sequence : s.allocate.2.sequence = s.sequence + passed + 1 := by
    rw [← next, allocate, unset]
  rw [sequence] at given after
  have free : ¬ s.Taken (s.sequence + passed + 1) := by
    rw [Taken, ← given, Register.contains, unstored]
    simp
  refine ⟨r, passed + 1, given ▸ .of_passed before free, ?_, Prod.ext allocated after⟩
  have distinct : ((List.range passed).map (s.sequence + · + 1)).Nodup :=
    (List.nodup_map_iff fun i j same => by omega).mpr List.nodup_range
  have stored : ∀ n ∈ (List.range passed).map (s.sequence + · + 1), s.Taken n := fun n listed => by
    obtain ⟨i, within, rfl⟩ := List.mem_map.mp listed
    exact before i (List.mem_range.mp within)
  have count := length_le_size distinct stored
  rw [List.length_map, List.length_range] at count
  omega

-----------------------------------------------------------------------------------------
-- Runs of seeding, commits and allocations
-----------------------------------------------------------------------------------------

/-- A call on the store that stores a record or gives out a reference. -/
inductive Demand where
  | seed (multiple : Multiple)
  | commit (multiple : Multiple) (expected : Option UInt64)
  | allocate

/-- The store once a call has been made; one that fails may still use up a fault. -/
def meet (s : MultipleStore) : Demand → MultipleStore
  | .seed m =>
      match s.seed m with
      | .ok (_, t) => t
      | .error _ => s
  | .commit m expected => (s.commit m expected).2
  | .allocate => s.allocate.2

/-- The store once calls have been made in their order. -/
def meetAll (s : MultipleStore) (demands : List Demand) : MultipleStore :=
  demands.foldl meet s

/-- The reference that a call gives out. -/
def given? (s : MultipleStore) : Demand → Option MultipleReference
  | .allocate => s.allocate.1.toOption
  | .seed _ | .commit .. => none

/-- The references that calls give out, in the order of the calls. -/
def given (s : MultipleStore) : List Demand → List MultipleReference
  | [] => []
  | demand :: rest => (s.given? demand).toList ++ (s.meet demand).given rest

theorem given_append (s : MultipleStore) (past later : List Demand)
    : s.given (past ++ later) = s.given past ++ (s.meetAll past).given later := by
  induction past generalizing s with
  | nil => rfl
  | cons demand rest ih =>
      simp only [List.cons_append, given, ih, List.append_assoc]
      rfl

theorem meetAll_concat (s : MultipleStore) (past : List Demand) (demand : Demand)
    : s.meetAll (past ++ [demand]) = (s.meetAll past).meet demand :=
  List.foldl_concat ..

/-- (s.Supplies t) says that t gives out references of the same office as s, with higher numbers,
and that like s it has not been set up to fail at that.
-/
structure Supplies (s t : MultipleStore) : Prop where
  office : t.office = s.office
  sequence : s.sequence ≤ t.sequence
  unset : s.allocateFault = none → t.allocateFault = none

/-- What a store has besides its numbers does not matter. -/
theorem Supplies.of_eq (office : t.office = s.office) (sequence : t.sequence = s.sequence)
    (fault : t.allocateFault = s.allocateFault)
    : s.Supplies t :=
  ⟨office, Nat.le_of_eq sequence.symm, fault.trans⟩

theorem Supplies.trans {u : MultipleStore} (first : s.Supplies t) (next : t.Supplies u)
    : s.Supplies u :=
  ⟨next.office.trans first.office, Nat.le_trans first.sequence next.sequence,
    next.unset ∘ first.unset⟩

theorem supplies_compareAndSwap (s : MultipleStore) (m : Multiple) (expected : Option UInt64)
    : s.Supplies (s.compareAndSwap m expected).2 := by
  unfold compareAndSwap
  split
  · exact .of_eq rfl rfl rfl
  · exact .of_eq rfl rfl rfl
  · dsimp only
    split <;> exact .of_eq rfl rfl rfl

theorem supplies_commit (s : MultipleStore) (m : Multiple) (expected : Option UInt64)
    : s.Supplies (s.commit m expected).2 := by
  have tail : s.Supplies { s with hooks := s.hooks.tail } := .of_eq rfl rfl rfl
  have touched (q : MultipleReference) : s.Supplies ({ s with hooks := s.hooks.tail }.touch q) := by
    unfold touch
    split
    · exact tail
    · exact tail.trans (supplies_compareAndSwap _ _ _)
  unfold commit
  dsimp only
  split
  · exact tail.trans (supplies_compareAndSwap _ _ _)
  next q _ => exact (touched q).trans (supplies_compareAndSwap _ _ _)
  · exact tail

theorem supplies_allocate (s : MultipleStore) : s.Supplies s.allocate.2 := by
  unfold allocate
  split
  next fault =>
    exact ⟨rfl, Nat.le_refl _, fun unset => absurd (fault.symm.trans unset) (by simp)⟩
  next unset =>
    obtain ⟨passed, next, _⟩ := s.nextSequence_passes s.records.size s.sequence
    refine ⟨rfl, ?_, id⟩
    dsimp only
    omega

theorem supplies_meet (s : MultipleStore) (demand : Demand) : s.Supplies (s.meet demand) := by
  cases demand with
  | seed m =>
      rw [meet, seed]
      cases m.reference <;> exact .of_eq rfl rfl rfl
  | commit m expected => exact s.supplies_commit m expected
  | allocate => exact s.supplies_allocate

/-- All calls of a run keep up the supply, by induction on them from the last one. -/
theorem supplies_meetAll (s : MultipleStore) (demands : List Demand)
    : s.Supplies (s.meetAll demands) := by
  induction demands using List.reverseRecOn with
  | nil => exact .of_eq rfl rfl rfl
  | append_singleton past demand ih =>
      rw [meetAll_concat]
      exact ih.trans (supplies_meet _ demand)

/-- References that were given out have numbers that the store has got past, by induction on the
calls from the last one.
-/
theorem number_of_given {demands : List Demand} (given : r ∈ s.given demands)
    : ∃ n ≤ (s.meetAll demands).sequence, r = .ofSequence s.office n := by
  induction demands using List.reverseRecOn with
  | nil => cases given
  | append_singleton past demand ih =>
      have supplied := supplies_meet (s.meetAll past) demand
      rw [given_append, List.mem_append] at given
      rw [meetAll_concat]
      rcases given with earlier | last
      · obtain ⟨n, reached, rfl⟩ := ih earlier
        exact ⟨n, Nat.le_trans reached supplied.sequence, rfl⟩
      · simp only [MultipleStore.given, List.append_nil, Option.mem_toList] at last
        cases demand with
        | seed | commit => cases last
        | allocate =>
            cases answer : (s.meetAll past).allocate.1 with
            | error e => simp [given?, answer, Except.toOption] at last
            | ok q =>
                obtain rfl : q = r := by simpa [given?, answer, Except.toOption] using last
                obtain ⟨_, named, _⟩ := allocate_eq_ok answer
                rw [(s.supplies_meetAll past).office] at named
                exact ⟨_, Nat.le_refl _, named⟩

/-- At any point of a run of seeding, commits and allocations, the next search for a reference ends,
after one step more than there are records at most, and so does not depend on a bound; the reference
is given out. No record is stored under it, and it was not given out before in the run.
-/
theorem allocate_fresh (s : MultipleStore) (unset : s.allocateFault = none) (past : List Demand)
    : let t := s.meetAll past
      ∃ r steps,
        t.Search t.sequence steps r
        ∧ steps ≤ t.records.size + 1
        ∧ t.allocate = (.ok r, { t with sequence := t.sequence + steps })
        ∧ t.records.get? r = none
        ∧ r ∉ s.given past := by
  intro t
  have supplied : s.Supplies t := s.supplies_meetAll past
  obtain ⟨r, steps, search, bound, allocates⟩ := allocate_search (supplied.unset unset)
  have answer : t.allocate.1 = .ok r := congrArg Prod.fst allocates
  refine ⟨r, steps, search, bound, allocates, get?_of_allocated answer, fun before => ?_⟩
  obtain ⟨n, reached, named⟩ := number_of_given before
  obtain ⟨_, last, higher, _⟩ := allocate_eq_ok answer
  rw [last, supplied.office] at named
  have same := Reference.ofSequence_inj named
  exact absurd higher (Nat.not_lt.mpr (same ▸ reached))

end MultipleStore

namespace Sample

/-- The first number is taken by a record that is seeded and the third one by a record that a caller
commits under a reference of its own; the second one is given out.
-/
def claimed : List MultipleStore.Demand :=
  [ .seed { reference := some (.ofSequence 60 1), name := "Group" },
    .commit { reference := some (.ofSequence 60 3), name := "Group" } none,
    .allocate ]

open MultipleStore in
/-- The next search passes over the third number. -/
theorem fresh_after_claimed
    : let s : MultipleStore := { office := 60 }
      s.allocateFault = none
      ∧ s.given claimed = [.ofSequence 60 2]
      ∧ (s.meetAll claimed).Search 2 2 (.ofSequence 60 4)
      ∧ (s.meetAll claimed).allocate.1 = .ok (.ofSequence 60 4)
      ∧ .ofSequence 60 4 ∉ s.given claimed := by
  intro s
  have unset : s.allocateFault = none := rfl
  have number : (s.meetAll claimed).sequence = 2 ∧ (s.meetAll claimed).allocate.2.sequence = 4 := by
    decide +kernel
  have given : s.given claimed = [.ofSequence 60 2] := by decide +kernel
  obtain ⟨r, steps, search, _, allocates, _, fresh⟩ := s.allocate_fresh unset claimed
  have passed : (s.meetAll claimed).allocate.2.sequence = (s.meetAll claimed).sequence + steps :=
    congrArg (fun answer => answer.2.sequence) allocates
  have answer : (s.meetAll claimed).allocate.1 = .ok r := congrArg Prod.fst allocates
  obtain ⟨_, named, _⟩ := allocate_eq_ok answer
  obtain rfl : steps = 2 := by omega
  obtain rfl : r = .ofSequence 60 4 := by rw [named, number.2]; rfl
  rw [number.1] at search
  exact ⟨unset, given, search, answer, fresh⟩

end Sample

end CaseGrouping
