import CaseGrouping.Proofs.Round.Questions
import CaseGrouping.Proofs.Store.InMemory

/-! What the preparation of a round makes sure of: the work is well posed, belongs to the multiple
of the request, and lets no case join that belongs elsewhere.
-/

namespace CaseGrouping

-----------------------------------------------------------------------------------------
-- Prepared work
-----------------------------------------------------------------------------------------

/-- (r.Prepared request s) collects what holds of a reconciliation that a request comes to on the
stores s.
-/
structure Reconciliation.Prepared (request : RoundRequest) (s : Stores) (r : Reconciliation)
    : Prop where
  posed : r.WellPosed
  valid : r.multiple.validateIncoming = .ok ()
  carried : r.multiple = request.multiple.withReference r.reference
  own
    : request.multiple.reference = some r.reference
      ∨ request.multiple.reference = none ∧ r.expected = none
  mode : r.mode = request.mode
  edits : r.targeting.edits = request.edits
  joining
    : ∀ case ∈ r.delta.toAttach,
        ∃ c, s.cases.records.get? case = some c
          ∧ (c.multiple = none ∨ c.multiple = some r.reference)

/-- (m.Prepared request s) collects what holds of a movement that a request comes to on the stores
s: what leaves the source joins the target, which keeps its members, and nobody joins the source.
-/
structure Movement.Prepared (request : RoundRequest) (s : Stores) (m : Movement) : Prop where
  target : m.target.WellPosed
  source : m.source.WellPosed
  targetValid : m.target.multiple.validateIncoming = .ok ()
  sourceValid : m.source.multiple.validateIncoming = .ok ()
  stored : s.multiples.records.get? m.target.reference = some m.target.multiple
  named : request.target? = some m.target.reference
  carried : m.source.multiple = request.multiple
  targetOwn : m.target.multiple.reference = some m.target.reference
  own : m.source.multiple.reference = some m.source.reference
  apart : m.target.reference ≠ m.source.reference
  targetMode : m.target.mode = request.mode
  sourceMode : m.source.mode = request.mode
  targetEdits : m.target.targeting.edits = request.edits
  sourceEdits : m.source.targeting.edits = ∅
  mem_proposed
    : ∀ case,
        case ∈ m.target.delta.proposed
        ↔ case ∈ m.target.multiple.memberReferences ∨ case ∈ m.source.delta.toDetach
  nobody_joins : m.source.delta.toAttach = []

theorem Reconciliation.Prepared.reference {request : RoundRequest} {s : Stores}
    {r : Reconciliation} (prepared : r.Prepared request s)
    : r.multiple.reference = some r.reference := by
  rw [prepared.carried]
  rfl

/-- A reconciliation belongs to the multiple of its request, if that carries a reference. -/
theorem Reconciliation.Prepared.named {request : RoundRequest} {s : Stores} {r : Reconciliation}
    {reference : MultipleReference} (prepared : r.Prepared request s)
    (own : request.multiple.reference = some reference)
    : request.multiple.reference = some r.reference := by
  rcases prepared.own with named | ⟨absent, _⟩
  · exact named
  · exact absurd (absent.symm.trans own) (by simp)

/-- What holds of the work that a request comes to. -/
def Work.Prepared (request : RoundRequest) (s : Stores) : Work → Prop
  | .reconcile r => r.Prepared request s
  | .move m => m.Prepared request s

@[simp]
theorem Multiple.withReference_of_reference {m : Multiple} {reference : MultipleReference}
    (own : m.reference = some reference)
    : m.withReference reference = m := by
  rw [Multiple.withReference, ← own]

/-- A check depends on the members only. -/
theorem Multiple.validateIncoming_withReference {m : Multiple} {reference : MultipleReference}
    (valid : m.validateIncoming = .ok ())
    : (m.withReference reference).validateIncoming = .ok () := by
  have checked := Multiple.validateIncoming_eq_ok.mp valid
  exact Multiple.validateIncoming_eq_ok.mpr checked

-----------------------------------------------------------------------------------------
-- The deltas of the rounds
-----------------------------------------------------------------------------------------

namespace Reconciliation

theorem wellPosed_ofCreation (request : BulkCreation) (reference : MultipleReference)
    (expected : Option UInt64) (joiners : Joiners)
    : (ofCreation request reference expected joiners).WellPosed where
  splits := Coordinator.splits_creationDelta _ _
  leads := leads_electLead _ request.multiple.leadCase? .membershipChange

theorem wellPosed_ofUpdate (request : BulkUpdate) (reference : MultipleReference)
    (expected : Option UInt64) (joiners : Joiners)
    : (ofUpdate request reference expected joiners).WellPosed where
  splits := MembershipDelta.splits_resolve _ _ _
  leads := leads_electLead _ _ _

/-- In a creation round only eligible cases join. -/
theorem eligible_of_toAttach_ofCreation {request : BulkCreation} {reference : MultipleReference}
    {expected : Option UInt64} {joiners : Joiners} {case : CaseReference}
    (joins : case ∈ (ofCreation request reference expected joiners).delta.toAttach)
    : case ∈ joiners.eligible := by
  have splits := Coordinator.splits_creationDelta request.multiple.memberReferences
    joiners.eligible
  obtain ⟨proposed, absent⟩ := splits.mem_toAttach.mp joins
  exact (Coordinator.mem_proposed_creationDelta.mp proposed).resolve_left absent

/-- In an update in place those are proposed that are asked for and were not refused. -/
theorem mem_proposed_ofUpdate {request : BulkUpdate} {reference : MultipleReference}
    {expected : Option UInt64} {joiners : Joiners} {case : CaseReference}
    : case ∈ (ofUpdate request reference expected joiners).delta.proposed
      ↔ (case ∈ request.requested ∨ case ∈ request.matched)
        ∧ case ∉ joiners.failures.map Failure.case := by
  refine MembershipDelta.mem_proposed_resolve.trans ?_
  simp only [List.mem_filter, decide_eq_true_eq]
  exact or_and_right.symm

/-- In an update in place only those join that are wanted and were not refused. -/
theorem wanted_of_toAttach_ofUpdate {request : BulkUpdate} {reference : MultipleReference}
    {expected : Option UInt64} {joiners : Joiners} {case : CaseReference}
    (joins : case ∈ (ofUpdate request reference expected joiners).delta.toAttach)
    : case ∈ (MembershipDelta.resolve request.multiple.memberReferences request.requested
          request.matched).toAttach
      ∧ case ∉ joiners.failures.map Failure.case := by
  obtain ⟨proposed, absent⟩ :=
    (wellPosed_ofUpdate request reference expected joiners).splits.mem_toAttach.mp joins
  obtain ⟨asked, free⟩ := mem_proposed_ofUpdate.mp proposed
  exact ⟨(MembershipDelta.splits_resolve _ _ _).mem_toAttach.mpr
    ⟨MembershipDelta.mem_proposed_resolve.mpr asked, absent⟩, free⟩

end Reconciliation

/-- Those matched cases move that are members. -/
theorem Movers.mem_moving {m : Multiple} {reference : MultipleReference}
    {matched : List CaseReference} {case : CaseReference}
    : case ∈ (ofMatched m reference matched).moving
      ↔ case ∈ matched ∧ case ∈ m.memberReferences := by
  simp only [ofMatched, List.partition_eq_filter_filter, List.mem_filter, mem_orderedUnion,
    List.not_mem_nil, or_false]
  refine and_congr_right fun _ => ⟨fun found => ?_, fun member => ?_⟩
  · obtain ⟨x, found⟩ := Option.isSome_iff_exists.mp found
    obtain ⟨member, rfl⟩ := Multiple.member?_eq_some found
    exact List.mem_map_of_mem member
  · exact Option.isSome_iff_exists.mpr (Multiple.exists_member? member)

namespace Movement

variable (request : BulkUpdate) (reference : MultipleReference) (expected : Option UInt64)
  (target : Multiple) (targetReference : MultipleReference)

theorem mem_toDetach_ofUpdate {case : CaseReference}
    : case ∈ (ofUpdate request reference expected target targetReference).source.delta.toDetach
      ↔ case ∈ (Movers.ofMatched request.multiple reference request.matched).moving := by
  refine (MembershipDelta.splits_resolve _ _ _).mem_toDetach.trans ?_
  rw [MembershipDelta.mem_proposed_resolve]
  simp only [List.mem_filter, decide_eq_true_eq, List.not_mem_nil, or_false, not_and,
    Decidable.not_not]
  exact ⟨fun h => h.2 h.1, fun moves => ⟨(Movers.mem_moving.mp moves).2, fun _ => moves⟩⟩

theorem toAttach_ofUpdate
    : (ofUpdate request reference expected target targetReference).source.delta.toAttach = [] := by
  refine (MembershipDelta.splits_resolve _ _ _).toAttach_eq_nil fun case proposed => ?_
  rw [MembershipDelta.mem_proposed_resolve] at proposed
  simpa using fun h => (List.mem_filter.mp (proposed.resolve_right h)).1

theorem prepared_ofUpdate {s : Stores} (valid : request.multiple.validateIncoming = .ok ())
    (own : request.multiple.reference = some reference)
    (targetValid : target.validateIncoming = .ok ())
    (targetOwn : target.reference = some targetReference)
    (stored : s.multiples.records.get? targetReference = some target)
    (named : request.target = some targetReference) (apart : targetReference ≠ reference)
    : (ofUpdate request reference expected target targetReference).Prepared (.update request) s where
  target :=
    { splits := MembershipDelta.splits_resolve _ _ _
      leads := leads_targetLead _ _ }
  source :=
    { splits := MembershipDelta.splits_resolve _ _ _
      leads := leads_electLead _ request.multiple.leadCase? .membershipChange }
  targetValid := targetValid
  sourceValid := valid
  stored := stored
  named := named
  carried := rfl
  targetOwn := targetOwn
  own := own
  apart := apart
  targetMode := rfl
  sourceMode := rfl
  targetEdits := rfl
  sourceEdits := rfl
  mem_proposed := fun case => by
    rw [mem_toDetach_ofUpdate]
    exact MembershipDelta.mem_proposed_resolve
  nobody_joins := toAttach_ofUpdate _ _ _ _ _

end Movement

-----------------------------------------------------------------------------------------
-- Preparations that succeed
-----------------------------------------------------------------------------------------

namespace Coordinator

variable {k : Coordinator} {s t : Stores} {request : RoundRequest}

/-- A reconciliation is well posed, whatever the stores hold. -/
theorem Prepares.posed {r : Reconciliation} (prepares : k.Prepares s request (.reconcile r))
    : r.WellPosed := by
  cases prepares with
  | creation _ _ _ => exact Reconciliation.wellPosed_ofCreation _ _ _ _
  | inPlace _ _ _ _ => exact Reconciliation.wellPosed_ofUpdate _ _ _ _

/-- Among cases under their own references, a reconciliation lets nobody join who belongs elsewhere,
unless a search is answered with something else than what is stored.
-/
theorem Prepares.reconciliation {r : Reconciliation}
    (prepares : k.Prepares s request (.reconcile r)) (keyed : s.cases.Keyed)
    (unset : s.cases.searchAnswer = none)
    : r.Prepared request s := by
  have posed := prepares.posed
  cases prepares with
  | creation valid assigned asked =>
      refine ⟨posed, Multiple.validateIncoming_withReference valid, rfl, ?_, rfl, rfl,
        fun case joins => ?_⟩
      · cases assigned with
        | named own => exact .inl own
        | fresh absent _ => exact .inr ⟨absent, rfl⟩
      · rw [← asked.cases]
        exact Joiners.check_sound (asked.keyed keyed) (asked.searchAnswer unset)
          (Reconciliation.eligible_of_toAttach_ofCreation joins)
  | inPlace valid own stays asked =>
      refine ⟨posed, valid, (Multiple.withReference_of_reference own).symm, .inl own, rfl, rfl,
        fun case joins => ?_⟩
      obtain ⟨wanted, free⟩ := Reconciliation.wanted_of_toAttach_ofUpdate joins
      rw [← asked.cases]
      exact Joiners.check_sound (asked.keyed keyed) (asked.searchAnswer unset)
        (Joiners.mem_eligible_check wanted free)

/-- Among records under their own references, a movement goes to the multiple that was asked for. -/
theorem Prepares.movement {m : Movement} (prepares : k.Prepares s request (.move m))
    (filed : s.multiples.Filed)
    : m.Prepared request s := by
  cases prepares with
  | @move _ _ target _ stored valid own moves apart found targetValid targetOwn =>
      obtain rfl := Option.some.inj (targetOwn.symm.trans (filed target stored found).1)
      exact Movement.prepared_ofUpdate _ _ _ _ _ valid own targetValid targetOwn found moves apart

/-- An update with a target comes to a movement to it. -/
theorem Prepares.moves {request : BulkUpdate} {target : MultipleReference} {work : Work}
    (prepares : k.Prepares s (.update request) work) (filed : s.multiples.Filed)
    (named : request.target = some target)
    : ∃ m, work = .move m ∧ m.Prepared (.update request) s ∧ m.target.reference = target := by
  cases work with
  | reconcile r =>
      cases prepares with
      | inPlace _ _ stays _ => exact absurd (named.symm.trans stays) (by simp)
  | move m =>
      have prepared := prepares.movement filed
      exact ⟨m, rfl, prepared, Option.some.inj (prepared.named.symm.trans named)⟩

/-- Without a target a request comes to a reconciliation. -/
theorem Prepares.reconciles {work : Work} (prepares : k.Prepares s request work)
    (stays : request.target? = none)
    : ∃ r, work = .reconcile r := by
  cases prepares with
  | creation _ _ _ => exact ⟨_, rfl⟩
  | inPlace _ _ _ _ => exact ⟨_, rfl⟩
  | move _ _ moves _ _ _ _ => exact absurd (moves.symm.trans stays) (by simp)

/-- Those leave the source who are matched and listed by the request. -/
theorem Prepares.leaves {request : BulkUpdate} {m : Movement} {case : CaseReference}
    (prepares : k.Prepares s (.update request) (.move m))
    : case ∈ m.source.delta.toDetach
      ↔ case ∈ request.matched ∧ case ∈ request.multiple.memberReferences := by
  cases prepares with
  | move _ _ _ _ _ _ _ => rw [Movement.mem_toDetach_ofUpdate, Movers.mem_moving]

/-- The values and the tag of a move are for all who leave the source. -/
theorem Prepares.targeting {request : BulkUpdate} {m : Movement}
    (prepares : k.Prepares s (.update request) (.move m))
    : (∀ case, case ∈ m.target.targeting.cases ↔ case ∈ m.source.delta.toDetach)
      ∧ m.target.targeting.edits = request.edits
      ∧ m.target.targeting.subGroup = request.subGroup := by
  cases prepares with
  | move _ _ _ _ _ _ _ =>
      exact ⟨fun _ => (Movement.mem_toDetach_ofUpdate _ _ _ _ _).symm, rfl, rfl⟩

/-- Preparation that comes to work has only asked. -/
theorem asked_of_prepare {work : Work} (returns : (k.prepare request).Returns s work t)
    : s.Asked t := by
  have asked := k.prepare_asked request s
  rw [show (k.prepare request).runOn s = (.ok work, t) from returns] at asked
  exact asked

/-- Preparation only asks, and prepares the work. -/
theorem prepare_returns {work : Work} (inMemory : s.InMemory)
    (returns : (k.prepare request).Returns s work t)
    : s.Asked t ∧ work.Prepared request s := by
  have asked := asked_of_prepare returns
  have prepares := prepares_of_returns returns
  cases work with
  | reconcile r => exact ⟨asked, prepares.reconciliation inMemory.keyed inMemory.unset⟩
  | move m => exact ⟨asked, prepares.movement inMemory.filed⟩

end Coordinator

end CaseGrouping
