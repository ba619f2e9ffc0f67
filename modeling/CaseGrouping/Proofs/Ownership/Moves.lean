import CaseGrouping.Proofs.Agreement.Movements
import CaseGrouping.Proofs.Ownership.InPlace

/-! Cases that a move may take over. It goes by the members that its request lists and asks no case
where it belongs, so it moves a listed case to the target from wherever that case is.
-/

namespace CaseGrouping

-----------------------------------------------------------------------------------------
-- Cases that stay or go to the target
-----------------------------------------------------------------------------------------

/-- (MovesTo target mover before now) says that a case belongs where it did before, or is a mover
and belongs to the target now.
-/
def MovesTo (target : MultipleReference) (mover : Prop) (before now : SingleCase) : Prop :=
  now.multiple = before.multiple ∨ mover ∧ now.multiple = some target

section Moves

variable {target : MultipleReference} {mover : Prop} {before now : SingleCase}
  {change : ChangeSet}

theorem MovesTo.keep (moves : MovesTo target mover before now) (kept : change.membership = .keep)
    : MovesTo target mover before (change.apply now) := by
  rw [MovesTo, ChangeSet.apply_multiple, kept]
  exact moves

theorem MovesTo.attach (chosen : mover) (joins : change.membership = .attach target)
    : MovesTo target mover before (change.apply now) := by
  rw [MovesTo, ChangeSet.apply_multiple, joins]
  exact .inr ⟨chosen, rfl⟩

end Moves

/-- A movement attaches to its target whoever leaves its source, and changes no other membership. -/
theorem Movement.Prepared.sends_movesTo {m : Movement} {request : RoundRequest} {s : Stores}
    (prepared : m.Prepared request s) (case : CaseReference) (c : SingleCase)
    : (Work.move m).Sends
        (CaseWrite.Leaves case
          (MovesTo m.target.reference (case ∈ m.source.delta.toDetach) c)) := by
  have flags : ∀ r : Reconciliation, r.Flags
      (CaseWrite.Leaves case (MovesTo m.target.reference (case ∈ m.source.delta.toDetach) c)) :=
    fun r _ _ _ now moves => moves.keep rfl
  refine ⟨?_, ?_, flags m.target, flags m.source⟩
  · rintro w member rfl now moves
    rw [prepared.writes_target] at member
    by_cases joins : w.case ∈ m.target.delta.toAttach
    · obtain ⟨proposed, absent⟩ := prepared.target.splits.mem_toAttach.mp joins
      have leaves := ((prepared.mem_proposed w.case).mp proposed).resolve_left absent
      exact .attach leaves (prepared.target.membership_of_joins member joins)
    · exact moves.keep (Reconciliation.membership_of_stays member joins)
  · rintro w member rfl now moves
    refine moves.keep (Reconciliation.membership_of_stays member ?_)
    rw [prepared.nobody_joins]
    exact List.not_mem_nil

-----------------------------------------------------------------------------------------
-- Rounds with a target
-----------------------------------------------------------------------------------------

namespace Coordinator

variable {k : Coordinator} {s : Stores} {request : BulkUpdate}

/-- A move changes the multiple of a case to its target only, and only if the case is matched and
listed by the request. This holds for requests of any content and however the round ends. Where the
case belonged before is not asked.
-/
theorem updateBulk_moves_listed (k : Coordinator) (filed : s.multiples.Filed)
    {target : MultipleReference} (named : request.target = some target)
    {case : CaseReference} {c : SingleCase} (stored : s.cases.records.get? case = some c)
    : ((k.updateBulk request).runOn s).2.cases.Holds case
        (MovesTo target (case ∈ request.matched ∧ case ∈ request.multiple.memberReferences)
          c) := by
  have round : k.updateBulk request = k.carryOut (.update request) := rfl
  rw [round]
  refine (CaseStore.holds_outlasts case _).carryOut (fun _ _ _ _ holds => holds) ?_ ?_
  · intro t asked
    refine ⟨c, ?_, .inl rfl⟩
    rw [asked.cases]
    exact stored
  · intro work prepares
    obtain ⟨m, rfl, prepared, rfl⟩ := prepares.moves filed named
    have sends := prepared.sends_movesTo case c
    rw [prepares.leaves] at sends
    exact sends

end Coordinator

namespace Sample

/-- A case that the record lists although it belongs to a third multiple is taken away there. -/
theorem moves_listed_of_third
    : ((coordinator.updateBulk moving).runOn (owned third)).2.cases.Holds one
        (MovesTo other (one ∈ moving.matched ∧ one ∈ moving.multiple.memberReferences)
          { reference := one, multiple := some third }) :=
  coordinator.updateBulk_moves_listed (reachable_owned third).inMemory.filed rfl rfl

/-- So a case of a third multiple need not stay there. -/
theorem third_loses_case
    : ¬ ∀ (s : Stores) (request : BulkUpdate) (source target q : MultipleReference)
          (case : CaseReference) (c : SingleCase),
          s.Reachable
          → request.mode = .synchronousFanOut
          → request.multiple.reference = some source
          → request.target = some target
          → s.cases.records.get? case = some c
          → c.multiple = some q
          → q ≠ source
          → q ≠ target
          → ((coordinator.updateBulk request).runOn s).2.cases.Holds case fun c' =>
              c'.multiple = some q := by
  intro claim
  obtain ⟨c, stored, stays⟩ := claim (owned third) moving group other third one
    { reference := one, multiple := some third } (reachable_owned third) rfl rfl rfl rfl rfl
    (by decide) (by decide)
  have taken : (((coordinator.updateBulk moving).runOn (owned third)).2.cases.records.get? one).map
      SingleCase.multiple = some (some other) := by
    decide +kernel
  rw [stored, Option.map_some, stays] at taken
  exact absurd taken (by decide)

end Sample

end CaseGrouping
