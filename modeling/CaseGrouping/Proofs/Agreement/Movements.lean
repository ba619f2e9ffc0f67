import CaseGrouping.Proofs.Agreement.Sides
import CaseGrouping.Proofs.Round.Preparation

/-! The two sides of a move between multiples that share no case: they write to different cases, and
the writes of the round carry the plans of both.
-/

namespace CaseGrouping

namespace Movement

variable {m : Movement} {request : RoundRequest} {s : Stores} {w : CaseWrite}
  {case : CaseReference}

/-- The writes of a move, which has nobody leave by a write of its own. -/
def writes (m : Movement) : List CaseWrite :=
  m.target.plan.write ++ m.source.plan.write

/-- The target and the source share no case. -/
def Apart (m : Movement) : Prop :=
  m.target.multiple.memberReferences.Disjoint m.source.multiple.memberReferences

namespace Prepared

variable (prepared : m.Prepared request s)

include prepared

theorem toDetach_target : m.target.delta.toDetach = [] :=
  prepared.target.splits.toDetach_eq_nil fun case member =>
    (prepared.mem_proposed case).mpr (.inl member)

/-- Nobody leaves the target, so its plan has no first phase. -/
theorem writes_target : m.target.plan.writes = m.target.plan.write := by
  have none : m.target.plan.detach = [] := by
    simp [Reconciliation.plan, PropagationPlan.reconciling, prepared.toDetach_target]
  rw [PropagationPlan.writes, none]
  rfl

theorem member_of_proposed_source (proposed : case ∈ m.source.delta.proposed)
    : case ∈ m.source.multiple.memberReferences := by
  have stays : case ∉ m.source.delta.toAttach := by
    rw [prepared.nobody_joins]
    exact List.not_mem_nil
  exact (prepared.source.stays proposed stays).2

/-- No case is proposed to both sides. -/
theorem disjoint_proposed (apart : m.Apart)
    : m.target.delta.proposed.Disjoint m.source.delta.proposed := by
  intro case toTarget toSource
  rcases (prepared.mem_proposed case).mp toTarget with member | leaves
  · exact apart member (prepared.member_of_proposed_source toSource)
  · exact (prepared.source.splits.mem_toDetach.mp leaves).2 toSource

/-- Whoever leaves the source joins the target. -/
theorem joins_target (apart : m.Apart) (leaves : case ∈ m.source.delta.toDetach)
    : case ∈ m.target.delta.toAttach := by
  have member := (prepared.source.splits.mem_toDetach.mp leaves).1
  exact prepared.target.splits.mem_toAttach.mpr
    ⟨(prepared.mem_proposed case).mpr (.inr leaves), fun other => apart other member⟩

theorem disjoint_writes (apart : m.Apart)
    : (m.target.plan.write.map CaseWrite.case).Disjoint
        (m.source.plan.write.map CaseWrite.case) := by
  intro case toTarget toSource
  obtain ⟨w, written, rfl⟩ := List.mem_map.mp toTarget
  obtain ⟨v, other, same⟩ := List.mem_map.mp toSource
  refine prepared.disjoint_proposed apart (prepared.target.proposed written) ?_
  rw [← same]
  exact prepared.source.proposed other

theorem nodup_writes (apart : m.Apart) : (m.writes.map CaseWrite.case).Nodup := by
  rw [writes, List.map_append]
  exact List.nodup_append'.mpr
    ⟨prepared.target.nodup_write, prepared.source.nodup_write, prepared.disjoint_writes apart⟩

theorem carried_target (apart : m.Apart) : m.target.Carried m.writes where
  planned := fun w member => List.mem_append_left _ member
  proposed := by
    intro w member proposed
    rcases List.mem_append.mp member with own | other
    · exact own
    · exact (prepared.disjoint_proposed apart proposed (prepared.source.proposed other)).elim
  leaving := by
    intro case leaves
    rw [prepared.toDetach_target] at leaves
    cases leaves
  departing := by
    intro w member absent
    rcases List.mem_append.mp member with own | other
    · exact absurd (prepared.target.proposed own) absent
    · refine .inr (.inr ⟨Reconciliation.membership_of_stays other ?_, fun current => ?_⟩)
      · rw [prepared.nobody_joins]
        exact List.not_mem_nil
      · exact absent ((prepared.mem_proposed _).mpr (.inl current))

theorem carried_source (apart : m.Apart) : m.source.Carried m.writes where
  planned := fun w member => List.mem_append_right _ member
  proposed := by
    intro w member proposed
    rcases List.mem_append.mp member with other | own
    · exact (prepared.disjoint_proposed apart (prepared.target.proposed other) proposed).elim
    · exact own
  leaving := fun case leaves =>
    List.mem_map.mpr ⟨_, List.mem_append_left _
      (Reconciliation.attach_mem_plan (prepared.joins_target apart leaves)), rfl⟩
  departing := by
    intro w member absent
    rcases List.mem_append.mp member with other | own
    · by_cases joins : w.case ∈ m.target.delta.toAttach
      · exact .inr (.inl ⟨_, prepared.apart,
          prepared.target.membership_of_joins other joins⟩)
      · have stays := prepared.target.stays (prepared.target.proposed other) joins
        exact .inr (.inr ⟨Reconciliation.membership_of_stays other joins,
          fun member => apart stays.2 member⟩)
    · exact absurd (prepared.source.proposed own) absent

end Prepared

end Movement

end CaseGrouping
