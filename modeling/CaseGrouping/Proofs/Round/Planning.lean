import CaseGrouping.Proofs.Membership.Delta
import CaseGrouping.Proofs.Register
import CaseGrouping.Proofs.Round.Propagation
import CaseGrouping.Round.Reconciliation

/-! The plan of a reconciliation: which writes are in it, and what it has in mind for the lead flag
of each case. Values and tags that a case gets besides change neither membership nor lead.
-/

namespace CaseGrouping

-----------------------------------------------------------------------------------------
-- Changes that are planned
-----------------------------------------------------------------------------------------

namespace Targeting

@[simp]
theorem decorate_membership (t : Targeting) (r : CaseReference) (c : ChangeSet)
    : (t.decorate r c).membership = c.membership := by
  unfold decorate
  split
  · dsimp only
    split <;> rfl
  · rfl

@[simp]
theorem decorate_lead (t : Targeting) (r : CaseReference) (c : ChangeSet)
    : (t.decorate r c).lead = c.lead := by
  unfold decorate
  split
  · dsimp only
    split <;> rfl
  · rfl

/-- The values are for the cases that get them, and for no others. -/
theorem decorate_fields (t : Targeting) (r : CaseReference) {c : ChangeSet} (plain : c.fields = ∅)
    : (t.decorate r c).fields = if r ∈ t.cases then t.edits else ∅ := by
  unfold decorate
  split
  · dsimp only
    split <;> exact (congrArg (Register.insertAll · _) plain).trans (Register.insertAll_entries _)
  · exact plain

/-- So is the tag. -/
theorem decorate_subGroup (t : Targeting) (r : CaseReference) {c : ChangeSet}
    (plain : c.subGroup = none)
    : (t.decorate r c).subGroup = if r ∈ t.cases then t.subGroup else none := by
  unfold decorate
  split
  · dsimp only
    split
    next tag given => exact given.symm
    next none => exact plain.trans none.symm
  · exact plain

/-- A targeted case is written to if there is a value or a tag to write. -/
theorem plain_of_isEmpty {t : Targeting} {case : CaseReference} {c : ChangeSet}
    (targeted : case ∈ t.cases) (empty : (t.decorate case c).isEmpty = true)
    : t.edits = ∅ ∧ t.subGroup = none := by
  unfold decorate at empty
  rw [if_pos targeted] at empty
  have fields : (c.withFields t.edits).fields.isEmpty = true ∧ t.subGroup = none := by
    cases tag : t.subGroup with
    | none => simp_all [ChangeSet.isEmpty]
    | some _ => simp [tag, ChangeSet.isEmpty, ChangeSet.withSubGroup] at empty
  exact ⟨Register.ext_entries (Register.isEmpty_insertAll fields.1).2, fields.2⟩

end Targeting

namespace PropagationPlan

@[simp]
theorem keepChange_membership (m : Multiple) (lead : Option CaseReference) (r : CaseReference)
    : (keepChange m lead r).membership = .keep := by
  unfold keepChange
  dsimp only
  split <;> rfl

/-- A change of the lead flag brings neither values nor a tag. -/
theorem keepChange_plain (m : Multiple) (lead : Option CaseReference) (r : CaseReference)
    : (keepChange m lead r).fields = ∅ ∧ (keepChange m lead r).subGroup = none := by
  unfold keepChange
  dsimp only
  split <;> exact ⟨rfl, rfl⟩

/-- The lead flag of a member that stays is written where it changes. -/
theorem keepChange_lead (m : Multiple) (lead : Option CaseReference) (r : CaseReference)
    : (keepChange m lead r).lead
      = if (m.member? r).any (·.lead) = decide (lead = some r) then none
        else some (decide (lead = some r)) := by
  have same : ((m.member? r).any (·.lead) = true) = (lead = some r)
      ↔ (m.member? r).any (·.lead) = decide (lead = some r) := by
    rw [eq_iff_iff, Bool.eq_iff_iff (b := decide _), decide_eq_true_iff]
  simp only [keepChange, same]
  split <;> rfl

theorem mem_filterMap_writeUnlessEmpty {rs : List CaseReference} {f : CaseReference → ChangeSet}
    {w : CaseWrite}
    : w ∈ rs.filterMap (fun r => writeUnlessEmpty r (f r))
      ↔ w.case ∈ rs ∧ w.change = f w.case ∧ w.change.isEmpty = false := by
  simp only [List.mem_filterMap, writeUnlessEmpty]
  constructor
  · rintro ⟨r, member, some⟩
    split at some
    · cases some
    next changes =>
      cases some
      exact ⟨member, rfl, by simpa using changes⟩
  · rintro ⟨member, change, changes⟩
    refine ⟨w.case, member, ?_⟩
    rw [← change, changes]
    rfl

/-- Writes made for a list of cases are to some of these, in their order. -/
theorem cases_filterMap_writeUnlessEmpty (rs : List CaseReference) (f : CaseReference → ChangeSet)
    : ((rs.filterMap fun r => writeUnlessEmpty r (f r)).map CaseWrite.case).Sublist rs := by
  induction rs with
  | nil => exact .refl _
  | cons r rest ih =>
      rw [List.filterMap_cons, writeUnlessEmpty]
      split
      next empty =>
        exact ih.cons r
      next w some =>
        split at some
        · cases some
        · cases some
          exact ih.cons_cons r

end PropagationPlan

-----------------------------------------------------------------------------------------
-- The plan of a reconciliation
-----------------------------------------------------------------------------------------

/-- The plan of a reconciliation. -/
def Reconciliation.plan (r : Reconciliation) : PropagationPlan :=
  .reconciling r.reference r.multiple r.delta r.lead r.targeting

/-- The membership of a reconciliation is split against the members of its multiple, and its lead
is chosen among the proposed ones.
-/
structure Reconciliation.WellPosed (r : Reconciliation) : Prop where
  splits : r.delta.Splits r.multiple.memberReferences
  leads : Leads r.lead r.delta.proposed

namespace Reconciliation

variable {r : Reconciliation} {w : CaseWrite} {case : CaseReference}

theorem mem_detach_plan
    : w ∈ r.plan.detach ↔ w.case ∈ r.delta.toDetach ∧ w.change = .detach r.reference := by
  simp only [plan, PropagationPlan.reconciling, List.mem_map]
  constructor
  · rintro ⟨case, leaves, rfl⟩
    exact ⟨leaves, rfl⟩
  · rintro ⟨leaves, change⟩
    exact ⟨w.case, leaves, by rw [← change]⟩

/-- A write of the second phase attaches a case that joins, or changes one that stays. -/
theorem mem_write_plan
    : w ∈ r.plan.write
      ↔ (w.case ∈ r.delta.toAttach
          ∧ w.change
            = r.targeting.decorate w.case (.attach r.reference (decide (r.lead = some w.case))))
        ∨ (w.case ∈ r.delta.unchanged
          ∧ w.change
            = r.targeting.decorate w.case (PropagationPlan.keepChange r.multiple r.lead w.case)
          ∧ w.change.isEmpty = false) := by
  simp only [plan, PropagationPlan.reconciling, List.mem_append,
    PropagationPlan.mem_filterMap_writeUnlessEmpty]
  refine or_congr ⟨?_, ?_⟩ Iff.rfl
  · rintro ⟨joins, change, _⟩
    exact ⟨joins, change⟩
  · rintro ⟨joins, change⟩
    -- A change that attaches is never empty.
    refine ⟨joins, change, ?_⟩
    rw [change, ChangeSet.isEmpty, Targeting.decorate_membership]
    simp [ChangeSet.attach]

theorem attach_mem_plan (joins : case ∈ r.delta.toAttach)
    : ⟨case, r.targeting.decorate case (.attach r.reference (decide (r.lead = some case)))⟩
      ∈ r.plan.write :=
  mem_write_plan.mpr (.inl ⟨joins, rfl⟩)

/-- Every case that stays is written to if its lead flag changes. -/
theorem keep_mem_plan {flag : Bool} (stays : case ∈ r.delta.unchanged)
    (changes : (PropagationPlan.keepChange r.multiple r.lead case).lead = some flag)
    : ⟨case, r.targeting.decorate case (PropagationPlan.keepChange r.multiple r.lead case)⟩
      ∈ r.plan.write := by
  refine mem_write_plan.mpr (.inr ⟨stays, rfl, ?_⟩)
  simp [ChangeSet.isEmpty, changes]

theorem detach_mem_plan (leaves : case ∈ r.delta.toDetach)
    : ⟨case, .detach r.reference⟩ ∈ r.plan.detach :=
  mem_detach_plan.mpr ⟨leaves, rfl⟩

/-- A write of the second phase brings the values and the tag to a case that gets them, and nothing
of this kind to others.
-/
theorem values_of_write (member : w ∈ r.plan.write)
    : w.change.fields = (if w.case ∈ r.targeting.cases then r.targeting.edits else ∅)
      ∧ w.change.subGroup
        = if w.case ∈ r.targeting.cases then r.targeting.subGroup else none := by
  rcases mem_write_plan.mp member with ⟨_, change⟩ | ⟨_, change, _⟩
  · rw [change]
    exact ⟨r.targeting.decorate_fields w.case rfl, r.targeting.decorate_subGroup w.case rfl⟩
  · have plain := PropagationPlan.keepChange_plain r.multiple r.lead w.case
    rw [change]
    exact ⟨r.targeting.decorate_fields w.case plain.1,
      r.targeting.decorate_subGroup w.case plain.2⟩

/-- Nobody leaves by a write of the second phase. -/
theorem stays_of_write (member : w ∈ r.plan.write)
    : ∀ multiple, w.change.membership ≠ .detach multiple := by
  rcases mem_write_plan.mp member with ⟨_, change⟩ | ⟨_, change, _⟩
  · simp [change, ChangeSet.attach]
  · simp [change]

/-- A proposed case that is to get values or a tag is written to, if there are any. -/
theorem WellPosed.exists_write (posed : r.WellPosed) (proposed : case ∈ r.delta.proposed)
    (targeted : case ∈ r.targeting.cases)
    (given : ¬ (r.targeting.edits = ∅ ∧ r.targeting.subGroup = none))
    : ∃ w ∈ r.plan.write, w.case = case := by
  by_cases current : case ∈ r.multiple.memberReferences
  · have stays := posed.splits.mem_unchanged.mpr ⟨current, proposed⟩
    refine ⟨⟨case, r.targeting.decorate case (PropagationPlan.keepChange r.multiple r.lead case)⟩,
      mem_write_plan.mpr (.inr ⟨stays, rfl, ?_⟩), rfl⟩
    exact Bool.eq_false_iff.mpr fun empty => given (Targeting.plain_of_isEmpty targeted empty)
  · have joins := posed.splits.mem_toAttach.mpr ⟨proposed, current⟩
    exact ⟨_, attach_mem_plan joins, rfl⟩

/-- The second phase writes to proposed cases only. -/
theorem WellPosed.proposed (posed : r.WellPosed) (member : w ∈ r.plan.write)
    : w.case ∈ r.delta.proposed := by
  rcases mem_write_plan.mp member with ⟨joins, _⟩ | ⟨stays, _⟩
  · exact (posed.splits.mem_toAttach.mp joins).1
  · exact (posed.splits.mem_unchanged.mp stays).2

/-- The writes of a plan are to different cases, since no case both leaves, joins and stays. -/
theorem WellPosed.nodup_write (posed : r.WellPosed) : (r.plan.write.map CaseWrite.case).Nodup := by
  have splits := posed.splits
  simp only [plan, PropagationPlan.reconciling, List.map_append]
  refine List.nodup_append'.mpr ⟨?_, ?_, ?_⟩
  · exact (PropagationPlan.cases_filterMap_writeUnlessEmpty _ _).nodup splits.toAttach_nodup
  · exact (PropagationPlan.cases_filterMap_writeUnlessEmpty _ _).nodup splits.unchanged_nodup
  · intro case joins stays
    have joins := (PropagationPlan.cases_filterMap_writeUnlessEmpty _ _).subset joins
    have stays := (PropagationPlan.cases_filterMap_writeUnlessEmpty _ _).subset stays
    exact (splits.mem_toAttach.mp joins).2 (splits.mem_unchanged.mp stays).1

theorem WellPosed.nodup_writes (posed : r.WellPosed)
    : (r.plan.writes.map CaseWrite.case).Nodup := by
  rw [PropagationPlan.writes, List.map_append]
  refine List.nodup_append'.mpr ⟨?_, posed.nodup_write, ?_⟩
  · have cases : r.plan.detach.map CaseWrite.case = r.delta.toDetach := by
      simp [plan, PropagationPlan.reconciling, Function.comp_def]
    rw [cases]
    exact posed.splits.toDetach_nodup
  · intro case leaves stays
    obtain ⟨_, member, rfl⟩ := List.mem_map.mp leaves
    obtain ⟨v, written, same⟩ := List.mem_map.mp stays
    have proposed := posed.proposed written
    rw [same] at proposed
    exact (posed.splits.mem_toDetach.mp (mem_detach_plan.mp member).1).2 proposed

-----------------------------------------------------------------------------------------
-- The lead flags that are planned
-----------------------------------------------------------------------------------------

/-- Among writes to different cases, the one to a case decides on its lead flag. -/
theorem findSome?_lead {ws : List CaseWrite} (distinct : (ws.map CaseWrite.case).Nodup)
    (member : w ∈ ws)
    : ws.findSome? (fun v => if v.case = w.case then v.change.lead else none)
      = w.change.lead := by
  induction ws with
  | nil => cases member
  | cons v rest ih =>
      obtain ⟨fresh, distinct⟩ := List.nodup_cons.mp distinct
      rw [List.findSome?_cons]
      rcases List.mem_cons.mp member with rfl | member
      · rw [if_pos rfl]
        cases lead : w.change.lead with
        | some _ => rfl
        | none =>
            refine List.findSome?_eq_none_iff.mpr fun u other => ?_
            refine if_neg fun same => fresh ?_
            exact same ▸ List.mem_map_of_mem other
      · have other : v.case ≠ w.case := fun same =>
          fresh (same ▸ List.mem_map_of_mem member)
        rw [if_neg other]
        exact ih distinct member

/-- Without a write to a case, nothing is decided on its lead flag. -/
theorem findSome?_lead_of_absent {ws : List CaseWrite} (absent : case ∉ ws.map CaseWrite.case)
    : ws.findSome? (fun v => if v.case = case then v.change.lead else none) = none := by
  refine List.findSome?_eq_none_iff.mpr fun v member => if_neg ?_
  rintro rfl
  exact absent (List.mem_map_of_mem member)

theorem WellPosed.plannedLead_of_joins (posed : r.WellPosed) (joins : case ∈ r.delta.toAttach)
    : r.plan.plannedLead? case = some (decide (r.lead = some case)) := by
  rw [PropagationPlan.plannedLead?,
    findSome?_lead (w := ⟨case, _⟩) posed.nodup_write (attach_mem_plan joins),
    Targeting.decorate_lead]
  rfl

/-- A case that stays has its flag changed or left alone. -/
theorem WellPosed.plannedLead_of_stays (posed : r.WellPosed) (stays : case ∈ r.delta.unchanged)
    : r.plan.plannedLead? case = (PropagationPlan.keepChange r.multiple r.lead case).lead := by
  have kept : r.plan.detach.any (·.case = case) = false := by
    refine List.any_eq_false.mpr fun w member => ?_
    intro same
    obtain rfl : w.case = case := by simpa using same
    exact (posed.splits.mem_toDetach.mp (mem_detach_plan.mp member).1).2
      (posed.splits.mem_unchanged.mp stays).2
  have decided : r.plan.write.findSome? (fun v => if v.case = case then v.change.lead else none)
      = (PropagationPlan.keepChange r.multiple r.lead case).lead := by
    by_cases written : case ∈ r.plan.write.map CaseWrite.case
    · obtain ⟨w, member, rfl⟩ := List.mem_map.mp written
      rw [findSome?_lead posed.nodup_write member]
      rcases mem_write_plan.mp member with ⟨joins, _⟩ | ⟨_, change, _⟩
      · exact absurd (posed.splits.mem_unchanged.mp stays).1
          (posed.splits.mem_toAttach.mp joins).2
      · rw [change, Targeting.decorate_lead]
    · rw [findSome?_lead_of_absent written]
      -- Only a change that writes nothing is left out, so the lead flag was not to change.
      cases lead : (PropagationPlan.keepChange r.multiple r.lead case).lead with
      | none => rfl
      | some flag => exact absurd (List.mem_map_of_mem (keep_mem_plan stays lead)) written
  rw [PropagationPlan.plannedLead?, decided, kept]
  cases (PropagationPlan.keepChange r.multiple r.lead case).lead <;> rfl

end Reconciliation

end CaseGrouping
