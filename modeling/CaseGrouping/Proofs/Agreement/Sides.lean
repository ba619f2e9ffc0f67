import CaseGrouping.Proofs.Round.Settlement

/-! One side of a round after its writes were delivered: whichever of them failed, a case is among
the settled members exactly when the stored case belongs to the multiple.
-/

namespace CaseGrouping

-----------------------------------------------------------------------------------------
-- What writes make of owners
-----------------------------------------------------------------------------------------

/-- The multiple that a case belongs to after a change of its membership. -/
def MembershipChange.owner (change : MembershipChange) (before : Option MultipleReference)
    : Option MultipleReference :=
  match change with
  | .keep => before
  | .attach multiple => some multiple
  | .detach multiple => if before = some multiple then none else before

theorem ChangeSet.apply_multiple (c : ChangeSet) (case : SingleCase)
    : (c.apply case).multiple = c.membership.owner case.multiple := by
  unfold apply MembershipChange.owner
  cases c.membership with
  | keep => rfl
  | attach _ => rfl
  | detach multiple =>
      dsimp only
      split
      · rfl
      · rfl

/-- Unless a case leaves, its lead flag is the one of the change, or else stays. -/
theorem ChangeSet.apply_leadClaimant {c : ChangeSet} (stays : ∀ m, c.membership ≠ .detach m)
    (case : SingleCase)
    : (c.apply case).leadClaimant = c.lead.getD case.leadClaimant := by
  unfold apply
  split
  · rfl
  · rfl
  next m leaves => exact absurd leaves (stays m)

section Delivered

variable {fault : CaseReference → Option Failure} {writes : List CaseWrite} {w : CaseWrite}
  {case : CaseReference} {before after : Register CaseReference SingleCase}

/-- A case that was not written is as it was, whether its write failed or there was none. -/
theorem Delivered.get?_of_not_written (delivered : Delivered fault writes before after)
    (absent : case ∉ (Propagation.ofFaults fault writes).written)
    : after.get? case = before.get? case := by
  rw [Propagation.mem_written_ofFaults] at absent
  by_cases member : case ∈ writes.map CaseWrite.case
  · cases failed : fault case with
    | none => exact absurd ⟨member, failed⟩ absent
    | some failure => exact delivered.refused failed
  · exact delivered.untouched member

theorem Delivered.owner (delivered : Delivered fault writes before after) (member : w ∈ writes)
    (free : fault w.case = none)
    : owner? after w.case = w.change.membership.owner (owner? before w.case) := by
  obtain ⟨c, stored, written⟩ := delivered.applied member free
  rw [owner?, owner?, stored, written]
  exact ChangeSet.apply_multiple _ _

/-- A case that was written and has not left has the lead flag that was written, if any. -/
theorem Delivered.claimant (delivered : Delivered fault writes before after) (member : w ∈ writes)
    (free : fault w.case = none) (stays : ∀ m, w.change.membership ≠ .detach m)
    : ∃ flag, claimant? before w.case = some flag
        ∧ claimant? after w.case = some (w.change.lead.getD flag) := by
  obtain ⟨c, stored, written⟩ := delivered.applied member free
  refine ⟨c.leadClaimant, by rw [claimant?, stored]; rfl, ?_⟩
  rw [claimant?, written, Option.map_some, ChangeSet.apply_leadClaimant stays]

/-- Multiples that no write joins or leaves have the cases that they had. -/
theorem Delivered.owner_elsewhere (delivered : Delivered fault writes before after)
    {q : MultipleReference}
    (each
      : ∀ w ∈ writes,
          w.change.membership.owner (owner? before w.case) = some q
          ↔ owner? before w.case = some q)
    (case : CaseReference)
    : owner? after case = some q ↔ owner? before case = some q := by
  by_cases written : case ∈ (Propagation.ofFaults fault writes).written
  · obtain ⟨sent, free⟩ := Propagation.mem_written_ofFaults.mp written
    obtain ⟨w, member, rfl⟩ := List.mem_map.mp sent
    rw [delivered.owner member free]
    exact each w member
  · rw [owner?, owner?, delivered.get?_of_not_written written]

end Delivered

-----------------------------------------------------------------------------------------
-- Writes that carry a plan
-----------------------------------------------------------------------------------------

/-- (r.Carried writes) says that the writes of a round carry the plan of one of its sides: they
have its writes to proposed cases and no others, and have a write to every case that leaves. What
is not proposed leaves, is put elsewhere, or was no member.
-/
structure Reconciliation.Carried (r : Reconciliation) (writes : List CaseWrite) : Prop where
  planned : ∀ w ∈ r.plan.write, w ∈ writes
  proposed : ∀ w ∈ writes, w.case ∈ r.delta.proposed → w ∈ r.plan.write
  leaving : ∀ case ∈ r.delta.toDetach, case ∈ writes.map CaseWrite.case
  departing
    : ∀ w ∈ writes,
        w.case ∉ r.delta.proposed
        → w.change.membership = .detach r.reference
          ∨ (∃ q, q ≠ r.reference ∧ w.change.membership = .attach q)
          ∨ w.change.membership = .keep ∧ w.case ∉ r.multiple.memberReferences

namespace Reconciliation

variable {r : Reconciliation} {fault : CaseReference → Option Failure} {writes : List CaseWrite}
  {case : CaseReference} {w : CaseWrite} {before after : Register CaseReference SingleCase}

/-- The plan of a reconciliation by itself is carried by its own writes. -/
theorem WellPosed.carried_writes (posed : r.WellPosed) : r.Carried r.plan.writes where
  planned := fun w member => List.mem_append_right _ member
  proposed := by
    intro w member proposed
    rcases List.mem_append.mp member with leaves | stays
    · exact absurd proposed (posed.splits.mem_toDetach.mp (mem_detach_plan.mp leaves).1).2
    · exact stays
  leaving := fun case leaves =>
    List.mem_map.mpr ⟨_, List.mem_append_left _ (detach_mem_plan leaves), rfl⟩
  departing := by
    intro w member absent
    rcases List.mem_append.mp member with leaves | stays
    · rw [(mem_detach_plan.mp leaves).2]
      exact .inl rfl
    · exact absurd (posed.proposed stays) absent

theorem WellPosed.membership_of_joins (posed : r.WellPosed) (member : w ∈ r.plan.write)
    (joins : w.case ∈ r.delta.toAttach)
    : w.change.membership = .attach r.reference := by
  rcases mem_write_plan.mp member with ⟨_, change⟩ | ⟨stays, _⟩
  · rw [change, Targeting.decorate_membership]
    rfl
  · exact absurd (posed.splits.mem_unchanged.mp stays).1 (posed.splits.mem_toAttach.mp joins).2

theorem membership_of_stays (member : w ∈ r.plan.write) (stays : w.case ∉ r.delta.toAttach)
    : w.change.membership = .keep := by
  rcases mem_write_plan.mp member with ⟨joins, _⟩ | ⟨_, change, _⟩
  · exact absurd joins stays
  · rw [change, Targeting.decorate_membership, PropagationPlan.keepChange_membership]

/-- A proposed case stays, unless it joins. -/
theorem WellPosed.stays (posed : r.WellPosed) (proposed : case ∈ r.delta.proposed)
    (other : case ∉ r.delta.toAttach)
    : case ∈ r.delta.unchanged ∧ case ∈ r.multiple.memberReferences := by
  have member : case ∈ r.multiple.memberReferences :=
    Decidable.byContradiction fun absent =>
      other (posed.splits.mem_toAttach.mpr ⟨proposed, absent⟩)
  exact ⟨posed.splits.mem_unchanged.mpr ⟨member, proposed⟩, member⟩

/-- Whichever writes failed, the settled members are the cases that belong to the multiple. -/
theorem WellPosed.members_agree (posed : r.WellPosed) (carried : r.Carried writes)
    (listed
      : ∀ case, case ∈ r.multiple.memberReferences ↔ owner? before case = some r.reference)
    (delivered : Delivered fault writes before after) (case : CaseReference)
    : case ∈ (r.members (Propagation.ofFaults fault writes).written).map Member.case
      ↔ owner? after case = some r.reference := by
  have splits := posed.splits
  rw [posed.mem_members]
  by_cases written : case ∈ (Propagation.ofFaults fault writes).written
  · obtain ⟨sent, free⟩ := Propagation.mem_written_ofFaults.mp written
    obtain ⟨w, member, rfl⟩ := List.mem_map.mp sent
    rw [delivered.owner member free]
    by_cases proposed : w.case ∈ r.delta.proposed
    · have planned := carried.proposed w member proposed
      by_cases joins : w.case ∈ r.delta.toAttach
      · rw [posed.membership_of_joins planned joins]
        simp [proposed, written, MembershipChange.owner]
      · obtain ⟨_, current⟩ := posed.stays proposed joins
        rw [membership_of_stays planned joins]
        simp [proposed, joins, MembershipChange.owner, (listed w.case).mp current]
    · have left : w.change.membership.owner (owner? before w.case) ≠ some r.reference := by
        rcases carried.departing w member proposed with leaves | ⟨q, other, put⟩ | ⟨kept, absent⟩
        · rw [leaves, MembershipChange.owner]
          split
          · exact fun h => nomatch h
          · assumption
        · rw [put, MembershipChange.owner]
          exact fun same => other (Option.some.inj same)
        · rw [kept, MembershipChange.owner]
          exact fun owner => absent ((listed w.case).mpr owner)
      simp [proposed, written, left]
  · rw [owner?, delivered.get?_of_not_written written, ← owner?, ← listed]
    simp only [written, imp_false, not_false_eq_true, and_true]
    constructor
    · rintro (⟨proposed, stays⟩ | leaves)
      · exact (posed.stays proposed stays).2
      · exact (splits.mem_toDetach.mp leaves).1
    · intro current
      by_cases proposed : case ∈ r.delta.proposed
      · exact .inl ⟨proposed, fun joins => (splits.mem_toAttach.mp joins).2 current⟩
      · exact .inr (splits.mem_toDetach.mpr ⟨current, proposed⟩)

end Reconciliation

end CaseGrouping
