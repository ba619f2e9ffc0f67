import CaseGrouping.Proofs.Agreement.States
import CaseGrouping.Proofs.Round.Reachable

/-! Records and cases keep agreeing on membership through rounds of which any writes fail.
-/

namespace CaseGrouping

variable {request : RoundRequest} {s t : Stores} {outcome : RoundOutcome}

-----------------------------------------------------------------------------------------
-- Reconciliations
-----------------------------------------------------------------------------------------

namespace Reconciliation

variable {r : Reconciliation}

/-- Writes of a prepared reconciliation leave the members of other multiples alone: what joins
belonged nowhere, and what leaves belonged here.
-/
theorem Prepared.owner_elsewhere (prepared : r.Prepared request s) {q : MultipleReference}
    (other : q ≠ r.reference) {w : CaseWrite} (member : w ∈ r.plan.writes)
    : w.change.membership.owner (owner? s.cases.records w.case) = some q
      ↔ owner? s.cases.records w.case = some q := by
  rcases List.mem_append.mp member with leaves | stays
  · rw [(mem_detach_plan.mp leaves).2]
    simp only [ChangeSet.detach, MembershipChange.owner]
    split
    next here =>
      rw [here]
      simp [other.symm]
    next => rfl
  · by_cases joins : w.case ∈ r.delta.toAttach
    · obtain ⟨c, stored, free⟩ := prepared.joining w.case joins
      rw [prepared.posed.membership_of_joins stays joins, MembershipChange.owner, owner?, stored]
      rcases free with none | here
      · simp [none, other.symm]
      · simp [here]
    · rw [membership_of_stays stays joins]
      rfl

theorem Done.membersAgree (done : r.Done s outcome t) (prepared : r.Prepared request s)
    (carries : request.Carries s) (inMemory : s.InMemory) (agree : s.MembersAgree)
    : t.MembersAgree := by
  obtain ⟨delivered, settled, ⟨fresh, record, stored⟩, _, _⟩ := done
  have posed := prepared.posed
  have listed : ∀ case, case ∈ r.multiple.memberReferences
      ↔ owner? s.cases.records case = some r.reference := by
    rw [← prepared.membersOf carries inMemory fresh]
    exact agree r.reference
  intro q case
  rw [settled.owner]
  by_cases here : q = r.reference
  · subst here
    have found : t.multiples.records.get? r.reference = some outcome.multiple := by
      rw [stored, Register.get?_insert_self]
    rw [Stores.membersOf_of_get? found, settled.memberReferences record]
    exact posed.members_agree posed.carried_writes listed delivered case
  · have same : t.membersOf q = s.membersOf q := by
      rw [Stores.membersOf, stored, Register.get?_insert_of_ne _ _ here]
      rfl
    rw [same, agree q case]
    exact (delivered.owner_elsewhere
      (fun w member => prepared.owner_elsewhere here member) case).symm

end Reconciliation

-----------------------------------------------------------------------------------------
-- Moves
-----------------------------------------------------------------------------------------

namespace Movement

variable {m : Movement}

theorem Prepared.listed_target (prepared : m.Prepared request s) (agree : s.MembersAgree)
    (case : CaseReference)
    : case ∈ m.target.multiple.memberReferences
      ↔ owner? s.cases.records case = some m.target.reference := by
  rw [← Stores.membersOf_of_get? prepared.stored]
  exact agree m.target.reference case

theorem Prepared.listed_source (prepared : m.Prepared request s) (carries : request.Carries s)
    (agree : s.MembersAgree) (case : CaseReference)
    : case ∈ m.source.multiple.memberReferences
      ↔ owner? s.cases.records case = some m.source.reference := by
  have own := prepared.own
  rw [prepared.carried] at own ⊢
  rw [← carries.membersOf own]
  exact agree m.source.reference case

/-- Two different multiples share no case when records and cases agree. -/
theorem Prepared.apart_of_agree (prepared : m.Prepared request s) (carries : request.Carries s)
    (agree : s.MembersAgree)
    : m.Apart := by
  intro case inTarget inSource
  have target := (prepared.listed_target agree case).mp inTarget
  have source := (prepared.listed_source carries agree case).mp inSource
  exact prepared.apart (Option.some.inj (target.symm.trans source))

/-- Writes of a prepared move leave the members of third multiples alone: what joins the target
belonged to the source.
-/
theorem Prepared.owner_elsewhere (prepared : m.Prepared request s) (carries : request.Carries s)
    (agree : s.MembersAgree) {q : MultipleReference} (notTarget : q ≠ m.target.reference)
    (notSource : q ≠ m.source.reference) {w : CaseWrite} (member : w ∈ m.writes)
    : w.change.membership.owner (owner? s.cases.records w.case) = some q
      ↔ owner? s.cases.records w.case = some q := by
  rcases List.mem_append.mp member with toTarget | toSource
  · by_cases joins : w.case ∈ m.target.delta.toAttach
    · obtain ⟨proposed, other⟩ := prepared.target.splits.mem_toAttach.mp joins
      have leaves := ((prepared.mem_proposed w.case).mp proposed).resolve_left other
      have current := (prepared.source.splits.mem_toDetach.mp leaves).1
      rw [prepared.target.membership_of_joins toTarget joins, MembershipChange.owner,
        (prepared.listed_source carries agree w.case).mp current]
      simp [notTarget.symm, notSource.symm]
    · rw [Reconciliation.membership_of_stays toTarget joins]
      rfl
  · have stays : w.case ∉ m.source.delta.toAttach := by
      rw [prepared.nobody_joins]
      exact List.not_mem_nil
    rw [Reconciliation.membership_of_stays toSource stays]
    rfl

theorem Done.membersAgree (done : m.Done s outcome t) (prepared : m.Prepared request s)
    (carries : request.Carries s) (agree : s.MembersAgree)
    : t.MembersAgree := by
  have apart := prepared.apart_of_agree carries agree
  obtain ⟨delivered, targetSettled, sourceSettled, ⟨_, _, targetRecord, sourceRecord, stored⟩, _,
    _⟩ := done
  intro q case
  rw [sourceSettled.owner, targetSettled.owner, Stores.membersOf, stored]
  by_cases inSource : q = m.source.reference
  · subst inSource
    rw [Register.get?_insert_self]
    dsimp only
    rw [sourceSettled.memberReferences sourceRecord]
    exact prepared.source.members_agree (prepared.carried_source apart)
      (prepared.listed_source carries agree) delivered case
  rw [Register.get?_insert_of_ne _ _ inSource]
  by_cases inTarget : q = m.target.reference
  · subst inTarget
    rw [Register.get?_insert_self]
    dsimp only
    rw [targetSettled.memberReferences targetRecord]
    exact prepared.target.members_agree (prepared.carried_target apart)
      (prepared.listed_target agree) delivered case
  rw [Register.get?_insert_of_ne _ _ inTarget]
  refine (agree q case).trans ?_
  exact (delivered.owner_elsewhere
    (fun w member => prepared.owner_elsewhere carries agree inTarget inSource member) case).symm

end Movement

-----------------------------------------------------------------------------------------
-- Rounds
-----------------------------------------------------------------------------------------

/-- The work that a round through the pool has prepared is done when it returns, if cases and
records agreed.
-/
theorem Coordinator.carryOut_prepared_done {k : Coordinator} (inMemory : s.InMemory)
    (agree : s.MembersAgree) (carries : request.Carries s)
    (mode : request.mode = .synchronousFanOut)
    (returns : (k.carryOut request).Returns s outcome t)
    : ∃ work : Work, k.Prepares s request work ∧ work.Prepared request s ∧ work.Done s outcome t := by
  obtain ⟨work, u, prepares, performs⟩ := carryOut_returns returns
  obtain ⟨asked, prepared⟩ := prepare_returns inMemory prepares
  have later := inMemory.asked asked
  refine ⟨work, prepares_of_returns prepares, prepared, Work.Done.asked ?_ asked⟩
  cases work with
  | reconcile r =>
      exact (reconcile_returns performs).done prepared.posed prepared.reference
        (prepared.mode.trans mode) later
  | move m =>
      exact (move_returns performs).done prepared (prepared.apart_of_agree carries agree) mode
        later

theorem Coordinator.carryOut_done {k : Coordinator} (inMemory : s.InMemory)
    (agree : s.MembersAgree) (carries : request.Carries s)
    (mode : request.mode = .synchronousFanOut)
    (returns : (k.carryOut request).Returns s outcome t)
    : ∃ work : Work, work.Prepared request s ∧ work.Done s outcome t := by
  obtain ⟨work, _, done⟩ := carryOut_prepared_done inMemory agree carries mode returns
  exact ⟨work, done⟩

/-- A round through the pool that returns leaves records and cases in agreement on membership,
whichever of its writes failed.
-/
theorem Coordinator.carryOut_membersAgree (k : Coordinator) (inMemory : s.InMemory)
    (consistent : s.Consistent) (carries : request.Carries s)
    (mode : request.mode = .synchronousFanOut)
    (returns : (k.carryOut request).Returns s outcome t)
    : t.MembersAgree := by
  obtain ⟨work, prepared, done⟩ :=
    carryOut_done inMemory consistent.members carries mode returns
  cases work with
  | reconcile r => exact done.membersAgree prepared carries inMemory consistent.members
  | move m => exact done.membersAgree prepared carries consistent.members

theorem Sample.consistent_stores (crashing : List CaseReference)
    : (stores crashing).Consistent := by
  refine Stores.consistent_of_ungrouped (fun r m found => ?_) (owner?_stores crashing)
  simp only [stores, Register.get?_insert] at found
  split at found
  · cases found
    rfl
  · cases found

theorem Sample.carries_joining (mode : PropagationMode) (crashing : List CaseReference)
    : (joining mode).Carries (stores crashing) :=
  ⟨group, rfl, rfl⟩

/-- A round of which one write fails leaves records and cases in agreement. -/
theorem Sample.membersAgree_of_failure
    : ∃ outcome t,
        (coordinator.carryOut (joining .synchronousFanOut)).Returns (stores [one]) outcome t
        ∧ outcome.failures.map Failure.case = [one]
        ∧ t.MembersAgree :=
  ⟨_, _, rfl, by decide +kernel,
    coordinator.carryOut_membersAgree (reachable_stores [one]).inMemory (consistent_stores [one])
      (carries_joining .synchronousFanOut [one]) rfl rfl⟩

end CaseGrouping
