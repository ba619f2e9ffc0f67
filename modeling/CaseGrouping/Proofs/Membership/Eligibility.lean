import CaseGrouping.Proofs.Round.Answers
import CaseGrouping.Proofs.Round.Reachable

/-! The check who may join comes to one verdict, whether the candidates were found by one search or
had to be retrieved one by one. No candidate is lost: each is let through or reported, in order.
-/

namespace CaseGrouping

/-- The stores in which the next search meets a fault, if any. -/
def Stores.searching (s : Stores) (fault : Option CaseStoreError) : Stores :=
  { s with cases := { s.cases with searchFault := fault } }

namespace Joiners

variable {scope : CaseScope} {multiple : MultipleReference} {candidates : List CaseReference}
  {s : Stores} {cases : Register CaseReference SingleCase}

-----------------------------------------------------------------------------------------
-- Candidates on two lists
-----------------------------------------------------------------------------------------

/-- (j.Sorts cases multiple candidates) says that the candidates are on two lists by what is stored:
each on one of them, as often as it is a candidate, and there in its place among the candidates.
-/
structure Sorts (j : Joiners) (cases : Register CaseReference SingleCase)
    (multiple : MultipleReference) (candidates : List CaseReference)
    : Prop where
  once : (j.eligible ++ j.failures.map Failure.case).Perm candidates
  eligible_order : j.eligible.Sublist candidates
  failures_order : (j.failures.map Failure.case).Sublist candidates
  eligible
    : ∀ r ∈ candidates,
        r ∈ j.eligible
        ↔ ∃ c, cases.get? r = some c ∧ (c.multiple = none ∨ c.multiple = some multiple)
  reasons
    : ∀ f ∈ j.failures,
        cases.get? f.case = none ∧ f.reason = "not found"
        ∨ ∃ c other,
            cases.get? f.case = some c
            ∧ c.multiple = some other
            ∧ other ≠ multiple
            ∧ f.reason = "already belongs to multiple " ++ other.text

/-- The failures are for the candidates with a verdict against them. -/
theorem cases_failures_ofStored
    : (ofStored multiple candidates cases).failures.map Failure.case
      = candidates.filter fun r => !(verdict? cases multiple r).isNone := by
  rw [ofStored, List.map_filterMap, ← List.filterMap_eq_filter]
  refine List.filterMap_congr fun r _ => ?_
  cases verdict : verdict? cases multiple r <;> simp [Option.guard, verdict]

/-- What is stored sorts the candidates. -/
theorem sorts_ofStored : (ofStored multiple candidates cases).Sorts cases multiple candidates where
  once := by
    rw [cases_failures_ofStored]
    exact List.filter_append_perm _ candidates
  eligible_order := List.filter_sublist
  failures_order := by
    rw [cases_failures_ofStored]
    exact List.filter_sublist
  eligible := by
    intro r candidate
    rw [ofStored, List.mem_filter, Option.isNone_iff_eq_none, verdict?_eq_none]
    exact and_iff_right candidate
  reasons := by
    intro f failed
    obtain ⟨r, _, verdict⟩ := List.mem_filterMap.mp failed
    obtain ⟨reason, against, rfl⟩ := Option.map_eq_some_iff.mp verdict
    exact verdict?_eq_some.mp against

-----------------------------------------------------------------------------------------
-- One search, or one by one
-----------------------------------------------------------------------------------------

/-- The calls of a check: one search, and if that fails one retrieval for each candidate. -/
def questions (scope : CaseScope) (candidates : List CaseReference)
    (fault : Option CaseStoreError) : List Call :=
  .search scope.singleType (.references candidates)
    :: if fault.isSome then candidates.map (.retrieve scope.singleType scope.jurisdiction) else []

/-- A check of candidates asks for all of them at once, and one by one only if that fails. -/
theorem check_journal (unset : s.cases.searchAnswer = none) (given : candidates ≠ [])
    (fault : Option CaseStoreError)
    : (check scope multiple candidates (s.searching fault)).2.journal
      = s.journal ++ (questions scope candidates fault).map fun call => ⟨s.clock, call⟩ := by
  have looked : (check scope multiple candidates (s.searching fault)).2
      = (look scope candidates (s.searching fault)).2 := by
    rw [check, if_neg (by simpa using given)]
    rfl
  rw [looked, look_eq, CaseStore.search]
  cases fault with
  | none => simp [Stores.searching, unset, questions, Stores.search, Stores.note, CaseStore.search]
  | some e =>
      simp [Stores.searching, unset, questions, Stores.search, Stores.note, CaseStore.search,
        retrieveEach_journal, Function.comp_def]

/-- Of a store in memory, where cases are found under their own references and no answers have been
set up, the check gives the same joiners when its search succeeds and when it fails. Either way the
candidates are sorted by what is stored.
-/
theorem check_either_way (keyed : s.cases.Keyed) (unset : s.cases.searchAnswer = none)
    (plain : s.cases.retrieveFaults = ∅) (error : CaseStoreError)
    : (check scope multiple candidates (s.searching none)).1
        = (check scope multiple candidates (s.searching (some error))).1
      ∧ ∀ fault,
          (check scope multiple candidates (s.searching fault)).1.Sorts s.cases.records multiple
            candidates
          ∧ (candidates ≠ []
              → (check scope multiple candidates (s.searching fault)).2.journal
                = s.journal ++ (questions scope candidates fault).map (⟨s.clock, ·⟩)) := by
  have answer : ∀ fault, (check scope multiple candidates (s.searching fault)).1
      = ofStored multiple candidates s.cases.records := fun fault =>
    check_eq_ofStored ⟨keyed, unset, .inr plain⟩
  refine ⟨(answer none).trans (answer _).symm, fun fault => ⟨?_, fun given => ?_⟩⟩
  · rw [answer fault]
    exact sorts_ofStored
  · exact check_journal unset given fault

end Joiners

namespace Sample

/-- Of three candidates one belongs to another multiple, and one is not stored. -/
theorem owned_checked_either_way
    : let absent : CaseReference := ⟨"6", by decide, by decide⟩
      let answer fault :=
        (Joiners.check {} group [one, absent, two] ((owned other).searching fault)).1
      (owned other).cases.Keyed
      ∧ (owned other).cases.searchAnswer = none
      ∧ (owned other).cases.retrieveFaults = ∅
      ∧ (answer (some (.timeout 5))).eligible = [two]
      ∧ (answer (some (.timeout 5))).failures
        = [⟨one, "already belongs to multiple 4"⟩, ⟨absent, "not found"⟩] := by
  intro absent answer
  have keyed := (reachable_owned other).inMemory.keyed
  have same : answer none = answer (some (.timeout 5)) :=
    (Joiners.check_either_way keyed rfl rfl (.timeout 5)).1
  refine ⟨keyed, rfl, rfl, ?_⟩
  rw [← same]
  decide +kernel

end Sample

end CaseGrouping
