import CaseGrouping.Proofs.Membership.Moves

/-! The members of a multiple that a creation round extends. The round keeps the members that its
request lists, and checks no more of the stored record than its version. A member of that record
which the request does not name is gone, even if the request has no version that tells the age of
its list.
-/

namespace CaseGrouping

-----------------------------------------------------------------------------------------
-- Reconciliations that return
-----------------------------------------------------------------------------------------

namespace Coordinator.Reconciled

variable {k : Coordinator} {r : Reconciliation} {s t : Stores} {outcome : RoundOutcome}
  (reconciled : Reconciled k r s outcome t)

include reconciled

/-- The committed record takes the place of the one that is stored by then at the expected version.
-/
theorem replaces (own : r.multiple.reference = some r.reference) (filed : s.multiples.Filed)
    : ∃ between,
        s.multiples.Meanwhile [] between
        ∧ between.version? r.reference = r.expected
        ∧ t.multiples.records = between.records.insert r.reference outcome.multiple := by
  obtain ⟨propagated, settled, committed, _, _⟩ := reconciled
  have untouched := multiples_outlasts s.multiples
  have same := (untouched.propagate _ _ (fun _ _ => trivial) _).of_returns rfl propagated
  have same := (untouched.settle (fun _ _ => trivial) _).of_returns same settled
  have swap := Stores.multiples_commit (Round.returns_multiples.mp committed)
  rw [same] at swap
  obtain ⟨between, others, fresh, _, stored⟩ := MultipleStore.commit_swaps (r := r.reference) filed
    (show (r.record _).reference = _ from own) swap
  exact ⟨between, others, fresh, congrArg MultipleStore.records stored⟩

/-- The committed record lists the members that the writes have left, and all failures are told. -/
theorem divided (posed : r.WellPosed) (keyed : s.cases.Keyed)
    : ∃ done u,
        Propagated r.plan r.mode done s u
        ∧ outcome.multiple.memberReferences = (r.members done.written).map Member.case
        ∧ r.failures ++ done.failures ⊆ outcome.failures := by
  obtain ⟨propagated, settled, committed, _, failed⟩ := reconciled
  refine ⟨_, _, propagate_propagated posed.nodup_writes keyed propagated,
    memberReferences_of_commit settled committed, ?_⟩
  rw [failed]
  exact List.subset_append_left _ _

end Coordinator.Reconciled

-----------------------------------------------------------------------------------------
-- Creation rounds
-----------------------------------------------------------------------------------------

/-- A creation round keeps the members of its request, and the eligible cases join that are written.
-/
theorem Reconciliation.mem_members_ofCreation {request : BulkCreation}
    {reference : MultipleReference} {expected : Option UInt64} {joiners : Joiners}
    {written : List CaseReference} {case : CaseReference}
    : case ∈ ((ofCreation request reference expected joiners).members written).map Member.case
      ↔ case ∈ request.multiple.memberReferences
        ∨ case ∈ joiners.eligible ∧ case ∈ written := by
  have posed := wellPosed_ofCreation request reference expected joiners
  have nobody : (ofCreation request reference expected joiners).delta.toDetach = [] :=
    Coordinator.toDetach_creationDelta _ _
  have proposed : case ∈ (ofCreation request reference expected joiners).delta.proposed
      ↔ case ∈ request.multiple.memberReferences ∨ case ∈ joiners.eligible :=
    Coordinator.mem_proposed_creationDelta
  have joins : case ∈ (ofCreation request reference expected joiners).delta.toAttach
      ↔ case ∈ (ofCreation request reference expected joiners).delta.proposed
        ∧ case ∉ request.multiple.memberReferences :=
    posed.splits.mem_toAttach
  rw [posed.mem_members, nobody, joins, proposed]
  by_cases old : case ∈ request.multiple.memberReferences
  · simp [old]
  · simp +contextual [old]

namespace Coordinator

variable {k : Coordinator} {s t : Stores} {outcome : RoundOutcome} {request : BulkCreation}
  {reference : MultipleReference}

/-- A creation round reconciles under the reference that it is assigned, at the version that goes
with it. Of the cases that are asked for, those are eligible for which there is no failure.
-/
theorem Prepares.assigned {work : Work} (prepares : k.Prepares s (.create request) work)
    : ∃ reference expected joiners,
        Assigned s request.multiple reference expected
        ∧ work = .reconcile (.ofCreation request reference expected joiners)
        ∧ ∀ case,
          (case ∈ joiners.eligible → case ∈ request.requested ∨ case ∈ request.matched)
          ∧ (case ∈ request.requested ∨ case ∈ request.matched
            → case ∉ joiners.failures.map Failure.case → case ∈ joiners.eligible) := by
  cases prepares with
  | creation valid assigned _ =>
      exact ⟨_, _, _, assigned, rfl, fun case =>
        ⟨fun eligible => mem_orderedUnion.mp (Joiners.candidate_of_eligible eligible),
          fun asked free => Joiners.mem_eligible_check (mem_orderedUnion.mpr asked) free⟩⟩

/-- A creation round that returns has asked its questions and carried out such a reconciliation. -/
theorem createBulk_assigned (returns : (k.createBulk request).Returns s outcome t)
    : ∃ reference expected joiners u,
        Assigned s request.multiple reference expected
        ∧ Reconciled k (.ofCreation request reference expected joiners) u outcome t
        ∧ s.Asked u
        ∧ ∀ case,
          (case ∈ joiners.eligible → case ∈ request.requested ∨ case ∈ request.matched)
          ∧ (case ∈ request.requested ∨ case ∈ request.matched
            → case ∉ joiners.failures.map Failure.case → case ∈ joiners.eligible) := by
  obtain ⟨work, u, prepares, performs⟩ := carryOut_returns
    (show (k.carryOut (.create request)).Returns s outcome t from returns)
  obtain ⟨reference, expected, joiners, assigned, rfl, eligible⟩ :=
    (prepares_of_returns prepares).assigned
  exact ⟨reference, expected, joiners, u, assigned, reconcile_returns performs,
    asked_of_prepare prepares, eligible⟩

/-- For a multiple that has a reference, this is its own, and the expected version is that of the
request or else the stored one.
-/
theorem createBulk_reconciled (keyed : s.cases.Keyed) (filed : s.multiples.Filed)
    (own : request.multiple.reference = some reference)
    (returns : (k.createBulk request).Returns s outcome t)
    : ∃ joiners u,
        Reconciled k (.ofCreation request reference
          (request.multiple.version <|> s.multiples.version? reference) joiners) u outcome t
        ∧ s.multiples.Meanwhile [] u.multiples
        ∧ u.cases.Keyed
        ∧ ∀ case,
          (case ∈ joiners.eligible → case ∈ request.requested ∨ case ∈ request.matched)
          ∧ (case ∈ request.requested ∨ case ∈ request.matched
            → case ∉ joiners.failures.map Failure.case → case ∈ joiners.eligible) := by
  obtain ⟨_, _, joiners, u, assigned, reconciled, asked, eligible⟩ := createBulk_assigned returns
  cases assigned with
  | fresh absent _ => exact absurd (absent.symm.trans own) (by simp)
  | named same =>
      cases Option.some.inj (own.symm.trans same)
      exact ⟨joiners, u, reconciled, .of_eq filed asked.multiples asked.hooks, asked.keyed keyed,
        eligible⟩

/-- When a creation round for a multiple with a reference returns, the cases that its request lists
as members are members, and so are the other cases that the request names and no failure does;
nobody else is. The committed record takes the place of the one that is stored by then, at the
version that the request gives, or else at the one that was stored when the round began. So no
member of that record is lost if the request lists all members that were stored then.
-/
theorem createBulk_keeps_listed (k : Coordinator) (keyed : s.cases.Keyed)
    (filed : s.multiples.Filed) (own : request.multiple.reference = some reference)
    (returns : (k.createBulk request).Returns s outcome t)
    : (∀ case ∈ request.multiple.memberReferences, case ∈ outcome.multiple.memberReferences)
      ∧ (∀ case,
          case ∈ request.requested ∨ case ∈ request.matched
          → case ∉ outcome.failures.map Failure.case
          → case ∈ outcome.multiple.memberReferences)
      ∧ (∀ case ∈ outcome.multiple.memberReferences,
          case ∈ request.multiple.memberReferences
          ∨ case ∈ request.requested
          ∨ case ∈ request.matched)
      ∧ ∃ between,
          s.multiples.Meanwhile [] between
          ∧ between.version? reference
            = (request.multiple.version <|> s.multiples.version? reference)
          ∧ t.multiples.records = between.records.insert reference outcome.multiple
          ∧ ((∀ stored,
                s.multiples.records.get? reference = some stored
                → stored.memberReferences ⊆ request.multiple.memberReferences)
            → ∀ replaced,
                between.records.get? reference = some replaced
                → replaced.memberReferences ⊆ outcome.multiple.memberReferences) := by
  obtain ⟨joiners, u, reconciled, alone, keyed, eligible⟩ :=
    createBulk_reconciled keyed filed own returns
  have posed := Reconciliation.wellPosed_ofCreation request reference
    (request.multiple.version <|> s.multiples.version? reference) joiners
  obtain ⟨done, v, propagated, members, failures⟩ := reconciled.divided posed keyed
  have listed : ∀ case, case ∈ outcome.multiple.memberReferences
      ↔ case ∈ request.multiple.memberReferences
        ∨ case ∈ joiners.eligible ∧ case ∈ done.written := by
    intro case
    rw [members]
    exact Reconciliation.mem_members_ofCreation
  have told := List.map_subset Failure.case failures
  rw [List.map_append] at told
  refine ⟨fun case member => (listed case).mpr (.inl member), fun case named unnamed => ?_,
    fun case member => ?_, ?_⟩
  · by_cases old : case ∈ request.multiple.memberReferences
    · exact (listed case).mpr (.inl old)
    have free := (eligible case).2 named fun failed =>
      unnamed (told (List.mem_append_left _ failed))
    have joins := posed.splits.mem_toAttach.mpr ⟨mem_proposed_creationDelta.mpr (.inr free), old⟩
    have written := propagated.written_of_unnamed
      (List.mem_append_right _ (Reconciliation.attach_mem_plan joins))
      fun failed => unnamed (told (List.mem_append_right _ failed))
    exact (listed case).mpr (.inr ⟨free, written⟩)
  · exact ((listed case).mp member).imp_right fun joined => (eligible case).1 joined.1
  · obtain ⟨between, others, fresh, committed⟩ := reconciled.replaces rfl alone.filed
    have others := alone.trans others
    refine ⟨between, others, fresh, committed, fun lists replaced found case member => ?_⟩
    obtain ⟨stored, before, same⟩ := (others.records reference (by simp)).listed found
    rw [← same] at member
    exact (listed case).mpr (.inl (lists stored before member))

end Coordinator

namespace Sample

/-- The second case is to join a multiple. -/
def extending (multiple : Multiple) : BulkCreation :=
  { multiple, requested := [two] }

/-- With the record as it is stored, its member stays. -/
theorem member_kept_by_listing
    : ∃ (outcome : RoundOutcome) (t : Stores) (between : MultipleStore),
        (coordinator.createBulk (extending listing)).Returns (owned group) outcome t
        ∧ one ∈ outcome.multiple.memberReferences
        ∧ two ∈ outcome.multiple.memberReferences
        ∧ between.version? group = some 1
        ∧ t.multiples.records = between.records.insert group outcome.multiple := by
  have inMemory := (reachable_owned group).inMemory
  obtain ⟨outcome, t, returns, failures⟩
      : ∃ outcome t,
          (coordinator.createBulk (extending listing)).Returns (owned group) outcome t
          ∧ outcome.failures = [] :=
    Round.exists_returns (by decide +kernel)
  obtain ⟨kept, joined, _, between, _, fresh, stored, _⟩ :=
    coordinator.createBulk_keeps_listed inMemory.keyed inMemory.filed rfl returns
  exact ⟨outcome, t, between, returns, kept one (by decide),
    joined two (.inl (by decide)) (by simp [failures]), fresh, stored⟩

/-- But the stored member is gone after a round with a record that lists nobody and has no version.
-/
theorem member_lost_by_omission
    : ¬ ∀ (k : Coordinator) (s t : Stores) (request : BulkCreation) (reference : MultipleReference)
          (stored : Multiple) (outcome : RoundOutcome) (case : CaseReference),
          s.Reachable
          → request.multiple.reference = some reference
          → s.multiples.records.get? reference = some stored
          → (k.createBulk request).Returns s outcome t
          → case ∈ stored.memberReferences
          → case ∈ outcome.multiple.memberReferences := by
  intro claim
  obtain ⟨outcome, t, returns, members⟩
      : ∃ outcome t,
          (coordinator.createBulk (extending { record with version := none })).Returns
            (owned group) outcome t
          ∧ outcome.multiple.memberReferences = [two] :=
    Round.exists_returns (by decide +kernel)
  have kept := claim coordinator (owned group) t (extending { record with version := none }) group
    listing outcome one (reachable_owned group) rfl rfl returns (by decide)
  rw [members] at kept
  exact absurd kept (by decide)

end Sample

end CaseGrouping
