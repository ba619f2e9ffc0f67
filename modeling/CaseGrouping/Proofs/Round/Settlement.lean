import CaseGrouping.Proofs.Multiple
import CaseGrouping.Proofs.Round.Planning

/-! The members that a reconciliation comes to once its writes are through: the proposed cases that
could join, and the present members that could not leave.
-/

namespace CaseGrouping

namespace Reconciliation

variable {r : Reconciliation} {written written' : List CaseReference} {case : CaseReference}

/-- The members after the writes. -/
def members (r : Reconciliation) (written : List CaseReference) : List Member :=
  finalMembers r.multiple r.delta r.lead written r.targeting

/-- Which cases have the lead flag after the writes. -/
def claims (r : Reconciliation) (written : List CaseReference) : CaseReference → Bool :=
  leadClaim r.multiple r.plan written

/-- The proposed cases that are members after the writes. -/
def joined (r : Reconciliation) (written : List CaseReference) : List CaseReference :=
  r.delta.proposed.filter fun case => case ∉ r.delta.toAttach || case ∈ written

/-- The cases that should have left and are still members after the writes. -/
def retained (r : Reconciliation) (written : List CaseReference) : List CaseReference :=
  r.delta.toDetach.filter (· ∉ written)

theorem mem_joined
    : case ∈ r.joined written
      ↔ case ∈ r.delta.proposed ∧ (case ∈ r.delta.toAttach → case ∈ written) := by
  simp only [joined, List.mem_filter, Bool.or_eq_true, decide_eq_true_eq]
  refine and_congr_right fun _ => ⟨?_, ?_⟩
  · rintro (stays | done) joins
    · exact absurd joins stays
    · exact done
  · intro done
    by_cases joins : case ∈ r.delta.toAttach
    · exact .inr (done joins)
    · exact .inl joins

theorem mem_retained
    : case ∈ r.retained written ↔ case ∈ r.delta.toDetach ∧ case ∉ written := by
  simp only [retained, List.mem_filter, decide_eq_true_eq]

/-- Entries that are looked up for members are found under their cases, by induction on them. -/
theorem cases_filterMap_member? {m : Multiple} {rs : List CaseReference}
    (present : ∀ case ∈ rs, case ∈ m.memberReferences)
    : (rs.filterMap m.member?).map Member.case = rs := by
  induction rs with
  | nil => rfl
  | cons case rest ih =>
      obtain ⟨x, found⟩ := Multiple.exists_member? (present case (by simp))
      have same := (Multiple.member?_eq_some found).2
      rw [List.filterMap_cons_some found, List.map_cons, same,
        ih fun other member => present other (by simp [member])]

/-- The cases of the members: those that joined or stayed, then those that were retained. -/
theorem WellPosed.cases_members (posed : r.WellPosed) (written : List CaseReference)
    : (r.members written).map Member.case = r.joined written ++ r.retained written := by
  have present : ∀ case ∈ r.retained written, case ∈ r.multiple.memberReferences :=
    fun case member => (posed.splits.mem_toDetach.mp (mem_retained.mp member).1).1
  have kept := cases_filterMap_member? present
  simp only [members, finalMembers, List.map_append, List.map_map, Function.comp_def]
  congr 1
  · exact List.map_id _

theorem WellPosed.mem_members (posed : r.WellPosed)
    : case ∈ (r.members written).map Member.case
      ↔ case ∈ r.delta.proposed ∧ (case ∈ r.delta.toAttach → case ∈ written)
        ∨ case ∈ r.delta.toDetach ∧ case ∉ written := by
  rw [posed.cases_members, List.mem_append, mem_joined, mem_retained]

/-- Whatever was written, only cases that were proposed or are to leave can be members. -/
theorem proposed_or_leaves_of_mem_members
    (member : case ∈ (r.members written).map Member.case)
    : case ∈ r.delta.proposed ∨ case ∈ r.delta.toDetach := by
  obtain ⟨x, listed, rfl⟩ := List.mem_map.mp member
  rcases List.mem_append.mp listed with entry | kept
  · obtain ⟨other, joined, rfl⟩ := List.mem_map.mp entry
    exact .inl (mem_joined.mp joined).1
  · obtain ⟨y, retained, rfl⟩ := List.mem_map.mp kept
    obtain ⟨other, retained, found⟩ := List.mem_filterMap.mp retained
    rw [← (Multiple.member?_eq_some found).2] at retained
    exact .inr (mem_retained.mp retained).1

/-- No case is a member twice, as those that leave are not proposed. -/
theorem WellPosed.nodup_members (posed : r.WellPosed) (written : List CaseReference)
    : ((r.members written).map Member.case).Nodup := by
  rw [posed.cases_members]
  refine List.nodup_append'.mpr
    ⟨posed.splits.proposed_nodup.filter _, posed.splits.toDetach_nodup.filter _, ?_⟩
  intro case joined retained
  exact (posed.splits.mem_toDetach.mp (mem_retained.mp retained).1).2 (mem_joined.mp joined).1

/-- The chosen lead is flagged, also among those that were retained: the lead is proposed, and they
are not.
-/
theorem WellPosed.flagged_members (posed : r.WellPosed) (written : List CaseReference)
    : Multiple.Flagged r.lead (r.members written) := by
  intro x member
  rcases List.mem_append.mp member with entry | kept
  · obtain ⟨case, _, rfl⟩ := List.mem_map.mp entry
    rfl
  · obtain ⟨y, retained, rfl⟩ := List.mem_map.mp kept
    obtain ⟨case, retained, found⟩ := List.mem_filterMap.mp retained
    have leaves := posed.splits.mem_toDetach.mp (mem_retained.mp retained).1
    rw [← (Multiple.member?_eq_some found).2] at leaves
    refine (decide_eq_false fun lead => leaves.2 (posed.leads.mem lead)).symm

/-- The members depend on which cases were written, not on the order in which this is told. -/
theorem members_congr (same : ∀ case, case ∈ written ↔ case ∈ written')
    : r.members written = r.members written' := by
  simp only [members, finalMembers, same]

/-- The lead flag of a case is the planned one if it was written, and the old one otherwise. -/
theorem claims_eq
    : r.claims written case
      = if case ∈ written then
          (r.plan.plannedLead? case).getD (decide (r.multiple.leadCase? = some case))
        else decide (r.multiple.leadCase? = some case) := by
  unfold claims leadClaim
  cases r.plan.plannedLead? case with
  | none => simp
  | some planned => split <;> simp_all

/-- The entry of a member is flagged if it is the lead. -/
theorem any_member?_lead (valid : r.multiple.validateIncoming = .ok ())
    (member : case ∈ r.multiple.memberReferences)
    : (r.multiple.member? case).any (·.lead) = decide (r.multiple.leadCase? = some case) := by
  obtain ⟨x, found⟩ := Multiple.exists_member? member
  obtain ⟨listed, rfl⟩ := Multiple.member?_eq_some found
  rw [found, Option.any_some, Bool.eq_iff_iff, decide_eq_true_iff]
  exact Multiple.lead_iff_leadCase? valid listed

-----------------------------------------------------------------------------------------
-- Reconciliations whose writes are all done
-----------------------------------------------------------------------------------------

/-- When all cases that join or leave were written, the members are the proposed cases, with the
tags that they were given or else those of their entries.
-/
theorem members_of_done (joins : ∀ case ∈ r.delta.toAttach, case ∈ written)
    (leaves : ∀ case ∈ r.delta.toDetach, case ∈ written)
    : r.members written
      = r.delta.proposed.map fun case =>
          { case
            lead := r.lead = some case
            subGroup :=
              r.targeting.tagFor case ((r.multiple.member? case).bind Member.subGroup)
                (case ∈ written) } := by
  have joined : r.joined written = r.delta.proposed := by
    refine List.filter_eq_self.mpr fun case proposed => ?_
    have := List.mem_filter.mp (mem_joined.mpr ⟨proposed, joins case⟩)
    exact this.2
  have retained : r.retained written = [] :=
    List.filter_eq_nil_iff.mpr fun case leaving => by simpa using leaves case leaving
  change (r.joined written).map _ ++ ((r.retained written).filterMap r.multiple.member?).map _ = _
  rw [joined, retained]
  exact List.append_nil _

/-- So their cases are the proposed ones. -/
theorem cases_members_of_done (joins : ∀ case ∈ r.delta.toAttach, case ∈ written)
    (leaves : ∀ case ∈ r.delta.toDetach, case ∈ written)
    : (r.members written).map Member.case = r.delta.proposed := by
  rw [members_of_done joins leaves, List.map_map]
  exact List.map_id _

/-- When all writes of the second phase were done, the chosen lead has its flag: it was written, or
the case had it before.
-/
theorem WellPosed.claims_of_done (posed : r.WellPosed)
    (valid : r.multiple.validateIncoming = .ok ())
    (done : ∀ w ∈ r.plan.write, w.case ∈ written) (lead : r.lead = some case)
    : r.claims written case = true := by
  have proposed := posed.leads.mem lead
  rw [claims_eq]
  by_cases joins : case ∈ r.delta.toAttach
  · rw [if_pos (done _ (attach_mem_plan joins)), posed.plannedLead_of_joins joins, Option.getD_some]
    exact decide_eq_true lead
  · have current : case ∈ r.multiple.memberReferences :=
      Decidable.byContradiction fun absent =>
        joins (posed.splits.mem_toAttach.mpr ⟨proposed, absent⟩)
    have stays := posed.splits.mem_unchanged.mpr ⟨current, proposed⟩
    have planned := posed.plannedLead_of_stays stays
    rw [PropagationPlan.keepChange_lead, any_member?_lead valid current, decide_eq_true lead]
      at planned
    by_cases old : r.multiple.leadCase? = some case
    · rw [if_pos (decide_eq_true old)] at planned
      rw [planned, Option.getD_none, decide_eq_true old, ite_self]
    · rw [if_neg (by simp [old])] at planned
      have sent := keep_mem_plan stays ((posed.plannedLead_of_stays stays).symm.trans planned)
      rw [if_pos (done _ sent), planned, Option.getD_some]

/-- Then a record with these members lists the proposed cases, and has the chosen lead. -/
theorem WellPosed.listed_of_done (posed : r.WellPosed)
    (joins : ∀ case ∈ r.delta.toAttach, case ∈ written)
    (leaves : ∀ case ∈ r.delta.toDetach, case ∈ written) {record : Multiple}
    (members : record.members = r.members written)
    : record.memberReferences = r.delta.proposed ∧ record.leadCase? = r.lead := by
  have listed : record.memberReferences = r.delta.proposed := by
    rw [Multiple.memberReferences, members]
    exact cases_members_of_done joins leaves
  refine ⟨listed, Multiple.leadCase?_of_flagged ?_ (listed ▸ posed.leads)⟩
  rw [members]
  exact posed.flagged_members written

end Reconciliation

end CaseGrouping
