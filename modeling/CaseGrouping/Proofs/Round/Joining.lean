import CaseGrouping.Proofs.Register
import CaseGrouping.Proofs.Store.Calls
import CaseGrouping.Round.Joining

/-! What the check of joiners lets through: stored cases that belong to no other multiple, whether
one search found them or they were retrieved one by one.
-/

namespace CaseGrouping

namespace Joiners

variable {scope : CaseScope} {multiple : MultipleReference} {candidates : List CaseReference}
  {r : CaseReference} {s : Stores}

-----------------------------------------------------------------------------------------
-- Looking up candidates
-----------------------------------------------------------------------------------------

/-- The answers for candidates that are retrieved one by one. -/
def retrieveEach (scope : CaseScope) (candidates : List CaseReference) : StateM Stores Findings :=
  candidates.mapM fun r => do return (r, ← Stores.retrieve scope r)

/-- Retrieving one by one only asks, by induction on the candidates. -/
theorem retrieveEach_asked (candidates : List CaseReference) (s : Stores)
    : (retrieveEach scope candidates s).1 = candidates.map (fun r => (r, s.cases.retrieve r))
      ∧ s.Asked (retrieveEach scope candidates s).2 := by
  induction candidates generalizing s with
  | nil => exact ⟨rfl, .refl s⟩
  | cons r rest ih =>
      obtain ⟨answers, asked⟩ := ih (Stores.retrieve scope r s).2
      have first : retrieveEach scope (r :: rest) s
          = ((r, s.cases.retrieve r) :: (retrieveEach scope rest (Stores.retrieve scope r s).2).1,
            (retrieveEach scope rest (Stores.retrieve scope r s).2).2) := by
        rw [retrieveEach, List.mapM_cons]
        rfl
      rw [first, answers]
      exact ⟨rfl, (Stores.Asked.retrieve scope r s).trans asked⟩

theorem retrieveEach_multiples (candidates : List CaseReference) (s : Stores)
    : (retrieveEach scope candidates s).2.multiples = s.multiples := by
  induction candidates generalizing s with
  | nil => rfl
  | cons r rest ih =>
      rw [retrieveEach, List.mapM_cons]
      exact ih (Stores.retrieve scope r s).2

/-- Retrieving one by one enters a call for each candidate, by induction on them. -/
theorem retrieveEach_journal (candidates : List CaseReference) (s : Stores)
    : (retrieveEach scope candidates s).2.journal
      = s.journal ++ candidates.map fun r =>
          ⟨s.clock, .retrieve scope.singleType scope.jurisdiction r⟩ := by
  induction candidates generalizing s with
  | nil => exact (List.append_nil _).symm
  | cons r rest ih =>
      rw [retrieveEach, List.mapM_cons]
      refine (ih (Stores.retrieve scope r s).2).trans ?_
      rw [List.map_cons, List.append_cons]
      rfl

/-- What is looked up comes from the search, or from retrieving when the search fails. -/
theorem look_eq (s : Stores)
    : look scope candidates s
      = match s.cases.search (.references candidates) with
        | (.ok cases, _) =>
            (findingsOf cases, (Stores.search scope (.references candidates) s).2)
        | (.error _, _) =>
            let t := (Stores.search scope (.references candidates) s).2
            ((retrieveEach scope candidates t).1.filter fun (_, answer) => isFinding answer,
              (retrieveEach scope candidates t).2) := by
  have first : ∀ f : Except CaseStoreError (List SingleCase) → StateM Stores Findings,
      (Stores.search scope (.references candidates) >>= f) s
        = f (Stores.search scope (.references candidates) s).1
            (Stores.search scope (.references candidates) s).2 := fun _ => rfl
  refine (first _).trans ?_
  have answer : (Stores.search scope (.references candidates) s).1
      = (s.cases.search (.references candidates)).1 := rfl
  rw [answer]
  rcases s.cases.search (.references candidates) with ⟨answer, after⟩
  cases answer <;> rfl

/-- Every case that was found is stored under the reference that it was found for. -/
def Sound (cases : Register CaseReference SingleCase) (findings : Findings) : Prop :=
  ∀ r c, (r, Except.ok c) ∈ findings → cases.get? r = some c

theorem sound_findingsOf (keyed : s.cases.Keyed) (criteria : SearchCriteria)
    : Sound s.cases.records (findingsOf (s.cases.found criteria)) := by
  intro r c member
  obtain ⟨d, found, same⟩ := List.mem_map.mp member
  cases same
  obtain ⟨key, stored⟩ := Register.exists_get?_of_mem_values (List.mem_filter.mp found).1
  rw [keyed key _ stored]
  exact stored

/-- A case that is retrieved is stored. -/
theorem get?_of_retrieve {cases : CaseStore} {c : SingleCase} (h : cases.retrieve r = .ok c)
    : cases.records.get? r = some c := by
  unfold CaseStore.retrieve at h
  split at h
  · cases h
  · split at h
    next stored =>
      cases h
      exact stored
    · cases h

/-- Looking up candidates only asks. -/
theorem look_asked (scope : CaseScope) (candidates : List CaseReference) (s : Stores)
    : s.Asked (look scope candidates s).2 := by
  have asked := Stores.Asked.search scope (.references candidates) s
  rw [look_eq]
  split
  · exact asked
  · exact asked.trans (retrieveEach_asked candidates _).2

/-- What looking up finds is stored, unless an answer has been set up. -/
theorem look_sound (keyed : s.cases.Keyed) (unset : s.cases.searchAnswer = none)
    : Sound s.cases.records (look scope candidates s).1 := by
  have asked := Stores.Asked.search scope (.references candidates) s
  rw [look_eq]
  split
  next cases after found =>
    unfold CaseStore.search at found
    rw [unset] at found
    split at found
    next set => cases set
    · cases found
    · cases found
      exact sound_findingsOf keyed _
  · intro r c member
    have answered := (List.mem_filter.mp member).1
    rw [(retrieveEach_asked candidates _).1] at answered
    obtain ⟨q, _, same⟩ := List.mem_map.mp answered
    have retrieved := congrArg Prod.snd same
    obtain rfl : q = r := congrArg Prod.fst same
    rw [← asked.cases]
    exact get?_of_retrieve retrieved

-----------------------------------------------------------------------------------------
-- The check
-----------------------------------------------------------------------------------------

/-- Candidates that are not refused are eligible. -/
theorem mem_eligible_ofFindings {findings : Findings} (candidate : r ∈ candidates)
    (free : r ∉ (ofFindings multiple candidates findings).failures.map Failure.case)
    : r ∈ (ofFindings multiple candidates findings).eligible := by
  refine List.mem_filter.mpr ⟨candidate, ?_⟩
  cases refused : refusal? multiple findings r with
  | none => rfl
  | some reason =>
      refine absurd ?_ free
      exact List.mem_map.mpr
        ⟨⟨r, reason⟩, List.mem_filterMap.mpr ⟨r, candidate, by rw [refused]; rfl⟩, rfl⟩

/-- A case that is not refused was found, and belongs to no other multiple. -/
theorem exists_of_refusal?_eq_none {findings : Findings} {cases : Register CaseReference SingleCase}
    (sound : Sound cases findings) (free : refusal? multiple findings r = none)
    : ∃ c, cases.get? r = some c ∧ (c.multiple = none ∨ c.multiple = some multiple) := by
  unfold refusal? at free
  split at free
  · cases free
  · cases free
  next q c found =>
    obtain rfl : q = r := by simpa using List.find?_some found
    refine ⟨c, sound q c (List.mem_of_find?_eq_some found), ?_⟩
    split at free
    · cases free
    next same =>
      unfold SingleCase.belongsElsewhere at same
      split at same
      next none => exact .inl none
      next current some =>
        have own : Option.some multiple = Option.some current := by
          simpa only [ne_eq, decide_not, Bool.not_eq_true', decide_eq_false_iff_not,
            Decidable.not_not] using same
        exact .inr (some.trans own.symm)

/-- Checking candidates only asks. -/
theorem check_asked (scope : CaseScope) (multiple : MultipleReference)
    (candidates : List CaseReference) (s : Stores)
    : s.Asked (check scope multiple candidates s).2 := by
  unfold check
  split
  · exact .refl s
  · exact look_asked scope candidates s

/-- Checking candidates leaves the store of multiples alone. -/
theorem check_multiples (scope : CaseScope) (multiple : MultipleReference)
    (candidates : List CaseReference) (s : Stores)
    : (check scope multiple candidates s).2.multiples = s.multiples := by
  unfold check
  split
  · rfl
  · change (look scope candidates s).2.multiples = _
    rw [look_eq]
    split
    · rfl
    · exact retrieveEach_multiples _ _

/-- Only candidates are eligible. -/
theorem candidate_of_eligible (eligible : r ∈ (check scope multiple candidates s).1.eligible)
    : r ∈ candidates := by
  unfold check at eligible
  split at eligible
  · cases eligible
  · exact (List.mem_filter.mp eligible).1

/-- A candidate is eligible unless there is a failure for it. -/
theorem mem_eligible_check (candidate : r ∈ candidates)
    (free : r ∉ (check scope multiple candidates s).1.failures.map Failure.case)
    : r ∈ (check scope multiple candidates s).1.eligible := by
  unfold check at free ⊢
  split at free
  next none =>
    rw [List.isEmpty_iff.mp none] at candidate
    cases candidate
  next some =>
    rw [if_neg some]
    exact mem_eligible_ofFindings candidate free

/-- Eligible cases are stored and belong to no other multiple. -/
theorem check_sound (keyed : s.cases.Keyed) (unset : s.cases.searchAnswer = none)
    (eligible : r ∈ (check scope multiple candidates s).1.eligible)
    : ∃ c, s.cases.records.get? r = some c
        ∧ (c.multiple = none ∨ c.multiple = some multiple) := by
  unfold check at eligible
  split at eligible
  · cases eligible
  · obtain ⟨_, free⟩ := List.mem_filter.mp eligible
    exact exists_of_refusal?_eq_none (look_sound keyed unset) (Option.isNone_iff_eq_none.mp free)

end Joiners

end CaseGrouping
