import CaseGrouping.Lead
import CaseGrouping.Membership
import CaseGrouping.Proofs.FirstOccurrences
import CaseGrouping.Round.Creation
import CaseGrouping.Round.Update

/-! The split of a proposed membership against the present one, and the lead elected for it.
Later proofs use the split only through the laws collected here.
-/

namespace CaseGrouping

-----------------------------------------------------------------------------------------
-- Requested and matched cases
-----------------------------------------------------------------------------------------

theorem mem_orderedUnion {requested matched : List CaseReference} {r : CaseReference}
    : r ∈ orderedUnion requested matched ↔ r ∈ requested ∨ r ∈ matched := by
  simp [orderedUnion, List.mem_eraseDups]

/-- Matched cases that are requested as well add nothing. -/
theorem orderedUnion_of_subset {requested matched : List CaseReference}
    (distinct : requested.Nodup) (known : matched ⊆ requested)
    : orderedUnion requested matched = requested := by
  have nothing : matched.removeAll requested = [] :=
    List.filter_eq_nil_iff.mpr fun r member => by simp [known member]
  rw [orderedUnion, List.eraseDups_append, eraseDups_of_nodup distinct, nothing]
  exact List.append_nil _

-----------------------------------------------------------------------------------------
-- The split
-----------------------------------------------------------------------------------------

/-- The delta d splits its proposal against the present members: a case joins when it is proposed
and no member, leaves when it is a member and not proposed, and stays when it is both.
-/
structure MembershipDelta.Splits (d : MembershipDelta) (current : List CaseReference)
    : Prop where
  proposed_nodup : d.proposed.Nodup
  toAttach_nodup : d.toAttach.Nodup
  toDetach_nodup : d.toDetach.Nodup
  unchanged_nodup : d.unchanged.Nodup
  mem_toAttach : ∀ {r}, r ∈ d.toAttach ↔ r ∈ d.proposed ∧ r ∉ current
  mem_toDetach : ∀ {r}, r ∈ d.toDetach ↔ r ∈ current ∧ r ∉ d.proposed
  mem_unchanged : ∀ {r}, r ∈ d.unchanged ↔ r ∈ current ∧ r ∈ d.proposed

namespace MembershipDelta

variable {current requested matched : List CaseReference} {r : CaseReference}

theorem mem_proposed_resolve
    : r ∈ (resolve current requested matched).proposed ↔ r ∈ requested ∨ r ∈ matched :=
  mem_orderedUnion

/-- Resolving a membership splits it, as first occurrences are kept on both sides. -/
theorem splits_resolve (current requested matched : List CaseReference)
    : (resolve current requested matched).Splits current where
  proposed_nodup := (firstOccurrences_eraseDups _).nodup
  toAttach_nodup := (firstOccurrences_eraseDups _).nodup.filter _
  toDetach_nodup := (firstOccurrences_eraseDups _).nodup.filter _
  unchanged_nodup := (firstOccurrences_eraseDups _).nodup.filter _
  mem_toAttach := by simp [resolve]
  mem_toDetach := by simp [resolve, List.mem_eraseDups]
  mem_unchanged := by simp [resolve, List.mem_eraseDups]

/-- Nobody leaves when all members are proposed. -/
theorem Splits.toDetach_eq_nil {d : MembershipDelta} (splits : d.Splits current)
    (kept : ∀ r ∈ current, r ∈ d.proposed)
    : d.toDetach = [] := by
  refine List.eq_nil_iff_forall_not_mem.mpr fun r leaves => ?_
  obtain ⟨member, absent⟩ := splits.mem_toDetach.mp leaves
  exact absent (kept r member)

/-- Nobody joins when all proposed cases are members. -/
theorem Splits.toAttach_eq_nil {d : MembershipDelta} (splits : d.Splits current)
    (known : ∀ r ∈ d.proposed, r ∈ current)
    : d.toAttach = [] := by
  refine List.eq_nil_iff_forall_not_mem.mpr fun r joins => ?_
  obtain ⟨proposed, absent⟩ := splits.mem_toAttach.mp joins
  exact absent (known r proposed)

/-- Nobody joins or leaves exactly when just the members are proposed. -/
theorem Splits.isMembershipChange_eq {d : MembershipDelta} (splits : d.Splits current)
    : d.isMembershipChange = false ↔ ∀ r, r ∈ current ↔ r ∈ d.proposed := by
  have nobody : d.isMembershipChange = false ↔ d.toAttach = [] ∧ d.toDetach = [] := by
    simp [isMembershipChange]
  rw [nobody]
  constructor
  · rintro ⟨joins, leaves⟩ r
    refine ⟨fun member => ?_, fun proposed => ?_⟩
    · refine Decidable.byContradiction fun absent => ?_
      have leaving := splits.mem_toDetach.mpr ⟨member, absent⟩
      rw [leaves] at leaving
      cases leaving
    · refine Decidable.byContradiction fun absent => ?_
      have joining := splits.mem_toAttach.mpr ⟨proposed, absent⟩
      rw [joins] at joining
      cases joining
  · intro same
    exact ⟨splits.toAttach_eq_nil fun r => (same r).mpr,
      splits.toDetach_eq_nil fun r => (same r).mp⟩

theorem Splits.roundKind_eq {d : MembershipDelta} (splits : d.Splits current)
    : d.roundKind = .fieldUpdate ↔ ∀ r, r ∈ current ↔ r ∈ d.proposed := by
  rw [← splits.isMembershipChange_eq]
  simp [roundKind]

end MembershipDelta

/-- The delta of a creation round splits against the members that the round starts from. -/
theorem Coordinator.splits_creationDelta (current eligible : List CaseReference)
    : (creationDelta current eligible).Splits current := by
  unfold creationDelta
  split
  next empty =>
    rw [List.isEmpty_iff.mp empty]
    exact MembershipDelta.splits_resolve _ _ _
  next => exact MembershipDelta.splits_resolve _ _ _

/-- A creation round proposes the present members and those that may join. -/
theorem Coordinator.mem_proposed_creationDelta {current eligible : List CaseReference}
    {r : CaseReference}
    : r ∈ (creationDelta current eligible).proposed ↔ r ∈ current ∨ r ∈ eligible := by
  unfold creationDelta
  split
  next empty => simp [MembershipDelta.mem_proposed_resolve, List.isEmpty_iff.mp empty]
  next => exact MembershipDelta.mem_proposed_resolve

/-- It proposes just the members if nobody else may join. -/
theorem Coordinator.proposed_creationDelta {current eligible : List CaseReference}
    (inhabited : current ≠ []) (distinct : current.Nodup) (known : eligible ⊆ current)
    : (creationDelta current eligible).proposed = current := by
  unfold creationDelta
  rw [if_neg (by simpa using inhabited)]
  exact orderedUnion_of_subset distinct known

/-- A creation round lets nobody leave. -/
theorem Coordinator.toDetach_creationDelta (current eligible : List CaseReference)
    : (creationDelta current eligible).toDetach = [] :=
  (splits_creationDelta current eligible).toDetach_eq_nil fun _ member =>
    mem_proposed_creationDelta.mpr (.inl member)

-----------------------------------------------------------------------------------------
-- Election
-----------------------------------------------------------------------------------------

/-- (Leads lead candidates) says that the lead is one of the candidates, and that there is one
if there are candidates.
-/
structure Leads (lead : Option CaseReference) (candidates : List CaseReference) : Prop where
  mem : ∀ {r}, lead = some r → r ∈ candidates
  isSome : candidates ≠ [] → lead.isSome

theorem leads_head? (candidates : List CaseReference) : Leads candidates.head? candidates := by
  refine ⟨fun chosen => List.mem_of_head? chosen, fun some => ?_⟩
  cases candidates with
  | nil => exact absurd rfl some
  | cons => rfl

/-- An election chooses among the candidates, whatever the round changes. -/
theorem leads_electLead (candidates : List CaseReference) (existing : Option CaseReference)
    (kind : RoundKind)
    : Leads (electLead candidates existing kind) candidates := by
  unfold electLead
  split
  next lead =>
    split
    next candidate => exact ⟨fun chosen => Option.some.inj chosen ▸ candidate, fun _ => rfl⟩
    next => exact leads_head? candidates
  next => exact leads_head? candidates

/-- When only fields change, a lead that is chosen among the candidates is chosen again. -/
theorem electLead_fieldUpdate {lead : Option CaseReference} {candidates : List CaseReference}
    (leads : Leads lead candidates)
    : electLead candidates lead .fieldUpdate = lead := by
  cases lead with
  | some chosen => exact if_pos (leads.mem rfl)
  | none =>
      have nobody : candidates = [] := Decidable.byContradiction fun some => by
        cases leads.isSome some
      rw [nobody]
      rfl

/-- The lead of a multiple that cases move to is one of its proposed members. -/
theorem leads_targetLead (target : Multiple) (delta : MembershipDelta)
    : Leads (targetLead target delta) delta.proposed := by
  unfold targetLead
  split
  next lead own =>
    have proposed : lead ∈ delta.proposed := by
      simpa using (Option.filter_eq_some_iff.mp own).2
    exact ⟨fun chosen => Option.some.inj chosen ▸ proposed, fun _ => rfl⟩
  next => exact leads_electLead _ _ _

end CaseGrouping
