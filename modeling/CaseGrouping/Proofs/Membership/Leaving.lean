import CaseGrouping.Proofs.Membership.Moves
import CaseGrouping.Proofs.Records.WellFormed

/-! Cases that a move has not taken out of the source. Leaving is inferred from the writes for the
target, and a case that is a member there already may need none; it then stays in the source as
well.
-/

namespace CaseGrouping

-----------------------------------------------------------------------------------------
-- Moving cases that need no write
-----------------------------------------------------------------------------------------

/-- Whoever moves and is not written to is a member of the target, and nothing is to be written. -/
theorem Movement.Prepared.shared_of_unplanned {m : Movement} {request : RoundRequest} {s : Stores}
    {case : CaseReference} (prepared : m.Prepared request s)
    (leaves : case ∈ m.source.delta.toDetach)
    (targeted : case ∈ m.target.targeting.cases)
    (unplanned : case ∉ m.target.plan.writes.map CaseWrite.case)
    : case ∈ m.target.multiple.memberReferences
      ∧ m.target.targeting.edits = ∅
      ∧ m.target.targeting.subGroup = none := by
  have proposed := (prepared.mem_proposed case).mpr (.inr leaves)
  have sent : ∀ change, (⟨case, change⟩ : CaseWrite) ∉ m.target.plan.write := fun change member =>
    unplanned (List.mem_map.mpr ⟨_, List.mem_append_right _ member, rfl⟩)
  obtain ⟨stays, member⟩ := prepared.target.stays proposed fun joins =>
    sent _ (Reconciliation.attach_mem_plan joins)
  have empty : (m.target.targeting.decorate case
      (PropagationPlan.keepChange m.target.multiple m.target.lead case)).isEmpty = true := by
    refine Decidable.byContradiction fun changes => ?_
    exact sent _ (Reconciliation.mem_write_plan.mpr (.inr ⟨stays, rfl, by simpa using changes⟩))
  exact ⟨member, Targeting.plain_of_isEmpty targeted empty⟩

/-- Nobody is to stay in the source if all of its members leave. -/
theorem Movement.Prepared.proposed_source_eq_nil {m : Movement} {request : RoundRequest}
    {s : Stores} (prepared : m.Prepared request s)
    : m.source.delta.proposed = []
      ↔ ∀ case ∈ m.source.multiple.memberReferences, case ∈ m.source.delta.toDetach := by
  have splits := prepared.source.splits
  rw [List.eq_nil_iff_forall_not_mem]
  constructor
  · exact fun nobody case member => splits.mem_toDetach.mpr ⟨member, nobody case⟩
  · intro leaves case proposed
    have member := prepared.member_of_proposed_source proposed
    exact (splits.mem_toDetach.mp (leaves case member)).2 proposed

-----------------------------------------------------------------------------------------
-- The checks on both records
-----------------------------------------------------------------------------------------

/-- A record whose members all lack the flag fails the checks. -/
theorem Multiple.not_checkInvariants_of_leaderless {m : Multiple}
    (flagged : Flagged none m.members) (inhabited : m.memberReferences ≠ [])
    : m.checkInvariants ≠ .ok () := by
  intro valid
  have lead := (checkInvariants_eq_ok.mp valid).2.2.2 fun empty =>
    inhabited (List.map_eq_nil_iff.mpr empty)
  obtain ⟨r, chosen⟩ := Option.isSome_iff_exists.mp lead
  obtain ⟨x, member, flag, _⟩ := exists_of_leadCase? chosen
  rw [flagged x member] at flag
  simp at flag

namespace Coordinator

variable {k : Coordinator} {s t u : Stores} {request : RoundRequest} {outcome : RoundOutcome}
  {m : Movement}

theorem settle_keyed {r : Reconciliation} {written : List CaseReference}
    {settled : List Member × List Failure} (keyed : s.cases.Keyed)
    (settles : (k.settle r written).Returns s settled t)
    : t.cases.Keyed :=
  (CaseStore.keyed_kept.outlasts.settle (fun _ _ => trivial) written).of_returns keyed settles

/-- The committed target passes the checks on either way: nobody leaves it, so the chosen lead is
among its members.
-/
theorem Moved.target_checkInvariants {movedTo : Multiple} (moved : Moved k m u outcome t)
    (prepared : m.Prepared request s) (keyed : u.cases.Keyed)
    (moves : outcome.movedTo = some movedTo)
    : movedTo.checkInvariants = .ok () := by
  obtain ⟨target, source, settled, _, committed, _, committedTo, _⟩ := moved
  cases committedTo.symm.trans moves
  obtain ⟨propagated, other⟩ := propagated_both prepared keyed target source
  rw [record_of_commit committed]
  refine Reconciliation.record_checkInvariants
    (led_of_settle prepared.target other.keyed (fun durable => ?_) settled) _
  rw [durable] at propagated
  refine prepared.target.led_of_joins (fun case joins => ?_) fun nobody => ?_
  · exact List.mem_append_left _ (propagated.written_of_queued
      (List.mem_append_right _ (Reconciliation.attach_mem_plan joins)))
  · refine List.map_eq_nil_iff.mp (?_ : List.map Member.case _ = [])
    rw [prepared.target.cases_members, Reconciliation.joined, Reconciliation.retained, nobody,
      prepared.toDetach_target]
    rfl

/-- The committed source passes the checks, unless its writes are in the queue, nobody was to stay,
and somebody stays nevertheless: no lead was chosen then, and none is elected.
-/
theorem Moved.source_checkInvariants (moved : Moved k m u outcome t)
    (prepared : m.Prepared request s) (keyed : u.cases.Keyed)
    : outcome.multiple.checkInvariants = .ok ()
      ↔ (m.source.mode = .durableQueue
        → m.source.delta.proposed = []
        → outcome.multiple.memberReferences = []) := by
  obtain ⟨target, source, targetSettled, settled, _, committed, _, _⟩ := moved
  obtain ⟨propagated, other⟩ := propagated_both prepared keyed target source
  have members := memberReferences_of_commit settled committed
  constructor
  · intro valid durable nobody
    refine Decidable.byContradiction fun inhabited => ?_
    have leaderless : m.source.lead = none := Option.eq_none_iff_forall_ne_some.mpr fun r lead => by
      have proposed := prepared.source.leads.mem lead
      rw [nobody] at proposed
      cases proposed
    have flagged := prepared.source.flagged_members
    rw [settle_durable durable] at settled
    cases (Round.returns_pure.mp settled).1
    refine Multiple.not_checkInvariants_of_leaderless ?_ inhabited valid
    rw [record_of_commit committed, ← leaderless]
    exact flagged _
  · intro fine
    rw [record_of_commit committed]
    refine Reconciliation.record_checkInvariants
      (led_of_settle prepared.source (settle_keyed other.keyed targetSettled)
        (fun durable => ?_) settled) _
    refine prepared.source.led_of_joins (fun case joins => ?_) fun nobody => ?_
    · rw [prepared.nobody_joins] at joins
      cases joins
    · rw [fine durable nobody] at members
      exact List.map_eq_nil_iff.mp members.symm

-----------------------------------------------------------------------------------------
-- Rounds with a target
-----------------------------------------------------------------------------------------

/-- When a round with a target returns, every matched member of the request's record that is not
named in the failures is a member of the target. It is a member of the source as well only if it was
one of the target before and the request carries neither values nor a tag. The committed target
passes all checks, and so does the source, unless the writes are in the queue, all of its members
were matched, and one of them has stayed.
-/
theorem updateBulk_moves_unless_shared (k : Coordinator) {request : BulkUpdate}
    {target : MultipleReference} (keyed : s.cases.Keyed) (filed : s.multiples.Filed)
    (named : request.target = some target)
    (returns : (k.updateBulk request).Returns s outcome t)
    : ∃ stored movedTo,
        s.multiples.records.get? target = some stored
        ∧ outcome.movedTo = some movedTo
        ∧ (∀ case ∈ request.multiple.memberReferences,
            case ∈ request.matched
            → case ∉ outcome.failures.map Failure.case
            → case ∈ movedTo.memberReferences
              ∧ (case ∈ outcome.multiple.memberReferences
                → case ∈ stored.memberReferences ∧ request.edits = ∅ ∧ request.subGroup = none))
        ∧ movedTo.checkInvariants = .ok ()
        ∧ (outcome.multiple.checkInvariants = .ok ()
          ↔ (request.mode = .durableQueue
            → (∀ case ∈ request.multiple.memberReferences, case ∈ request.matched)
            → outcome.multiple.memberReferences = [])) := by
  obtain ⟨m, u, prepares, prepared, rfl, keyed, moved⟩ := updateBulk_moved keyed filed named returns
  obtain ⟨movedTo, done, v, moves, propagates, propagated, divided, failures⟩ :=
    moved.divided prepared keyed
  have prepares := prepares_of_returns prepares
  have listed : m.source.multiple = request.multiple := prepared.carried
  obtain ⟨targeted, edits, tag⟩ := prepares.targeting
  refine ⟨m.target.multiple, movedTo, prepared.stored, moves, fun case member matched unnamed => ?_,
    moved.target_checkInvariants prepared keyed moves, ?_⟩
  · have leaves := prepares.leaves.mpr ⟨matched, member⟩
    have unnamed : case ∉ done.failures.map Failure.case := fun failed =>
      unnamed (List.map_subset _ failures failed)
    have through : ∀ w ∈ m.target.plan.writes, w.case = case → case ∈ done.written := by
      rintro w planned rfl
      exact propagated.written_of_unnamed planned unnamed
    refine ⟨(divided.target case).mpr ?_, fun stays => ?_⟩
    · by_cases old : case ∈ m.target.multiple.memberReferences
      · exact .inl old
      · have joins := prepared.target.splits.mem_toAttach.mpr
          ⟨(prepared.mem_proposed case).mpr (.inr leaves), old⟩
        exact .inr ⟨leaves, through _
          (List.mem_append_right _ (Reconciliation.attach_mem_plan joins)) rfl⟩
    · rw [← edits, ← tag]
      refine prepared.shared_of_unplanned leaves ((targeted case).mpr leaves) fun planned => ?_
      obtain ⟨w, planned, same⟩ := List.mem_map.mp planned
      exact ((divided.source case).mp stays).2 leaves (through w planned same)
  · have everybody : m.source.delta.proposed = []
        ↔ ∀ case ∈ request.multiple.memberReferences, case ∈ request.matched := by
      rw [prepared.proposed_source_eq_nil, listed]
      exact forall₂_congr fun case member =>
        prepares.leaves.trans (and_iff_left member)
    rw [moved.source_checkInvariants prepared keyed, everybody, prepared.sourceMode]
    exact Iff.rfl

end Coordinator

namespace Sample

/-- The stores that a move with an outdated record of its source has left: the target is committed.
-/
def halfMoved : Stores :=
  ((coordinator.carryOut (.update moving)).runOn advanced).2

theorem reachable_halfMoved : halfMoved.Reachable :=
  .round coordinator (.update moving) reachable_advanced

/-- What an outcome tells of the failures and of the members on both sides. -/
def told (outcome : RoundOutcome)
    : List Failure × List CaseReference × Option (List CaseReference) :=
  (outcome.failures, outcome.multiple.memberReferences,
    outcome.movedTo.map Multiple.memberReferences)

/-- When the move is tried again, on either way, the case is in the target and stays in the source.
-/
theorem retried (mode : PropagationMode)
    : ∃ outcome t,
        (coordinator.updateBulk (movingOn mode [one])).Returns halfMoved outcome t
        ∧ told outcome = ([], [two, one], some [one]) := by
  refine Round.exists_returns (f := told) ?_
  cases mode <;> decide +kernel

theorem shared_after_retry
    : ∃ outcome t stored movedTo,
        (coordinator.updateBulk (movingOn .durableQueue [one])).Returns halfMoved outcome t
        ∧ halfMoved.multiples.records.get? other = some stored
        ∧ outcome.movedTo = some movedTo
        ∧ one ∈ outcome.multiple.memberReferences
        ∧ one ∈ movedTo.memberReferences
        ∧ one ∈ stored.memberReferences
        ∧ movedTo.checkInvariants = .ok ()
        ∧ outcome.multiple.checkInvariants = .ok () := by
  have inMemory := reachable_halfMoved.inMemory
  obtain ⟨outcome, t, returns, told⟩ := retried .durableQueue
  obtain ⟨failures, members⟩ := Prod.mk.inj told
  have stays : one ∈ outcome.multiple.memberReferences := by
    rw [(Prod.mk.inj members).1]
    decide
  obtain ⟨stored, movedTo, found, moved, moves, target, source⟩ :=
    coordinator.updateBulk_moves_unless_shared inMemory.keyed inMemory.filed rfl returns
  obtain ⟨joined, shared⟩ := moves one (by decide) (by decide) (by simp [failures])
  refine ⟨outcome, t, stored, movedTo, returns, found, moved, stays, joined, (shared stays).1,
    target, source.mpr fun _ all => ?_⟩
  exact absurd (all two (by decide)) (by decide)

/-- So a move that returns without a failure need not take a case out of its source. -/
theorem retried_move_shares_case
    : ¬ ∀ (k : Coordinator) (s t : Stores) (request : BulkUpdate) (target : MultipleReference)
          (outcome : RoundOutcome) (movedTo : Multiple) (case : CaseReference),
          s.Reachable
          → request.target = some target
          → (k.updateBulk request).Returns s outcome t
          → outcome.movedTo = some movedTo
          → case ∈ request.matched
          → case ∈ request.multiple.memberReferences
          → case ∉ outcome.failures.map Failure.case
          → case ∈ movedTo.memberReferences
            ∧ case ∉ outcome.multiple.memberReferences
            ∧ movedTo.checkInvariants = .ok ()
            ∧ outcome.multiple.checkInvariants = .ok () := by
  intro claim
  obtain ⟨outcome, t, returns, told⟩ := retried .synchronousFanOut
  obtain ⟨failures, members⟩ := Prod.mk.inj told
  obtain ⟨source, target⟩ := Prod.mk.inj members
  obtain ⟨movedTo, moved, _⟩ := Option.map_eq_some_iff.mp target
  have left := (claim coordinator halfMoved t (movingOn .synchronousFanOut [one]) other outcome
    movedTo one reachable_halfMoved rfl returns moved (by decide) (by decide)
    (by simp [failures])).2.1
  exact left (by rw [source]; decide)

end Sample

end CaseGrouping
