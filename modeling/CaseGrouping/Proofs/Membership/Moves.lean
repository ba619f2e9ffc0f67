import CaseGrouping.Proofs.Records.Failure
import CaseGrouping.Proofs.Round.Queueing

/-! The members of both records after a move. Whoever leaves the source is told by one list only,
that of the cases written for the target, so no member is lost, made up, or listed on both sides
unless it was a member of the target before.
-/

namespace CaseGrouping

-----------------------------------------------------------------------------------------
-- What becomes of a write
-----------------------------------------------------------------------------------------

/-- (w.Through done s t mode) says that between the stores s and t the write w was applied to its
case, or with the queue, that a job for its case with the same membership was taken. The propagation
done names no failure of it.
-/
inductive CaseWrite.Through (w : CaseWrite) (done : Propagation) (s t : Stores)
    : PropagationMode → Prop where
  | applied {c} (stored : s.cases.records.get? w.case = some c)
    (written : t.cases.records.get? w.case = some (w.change.apply c))
    (unnamed : w.case ∉ done.failures.map Failure.case)
    : w.Through done s t .synchronousFanOut
  | enqueued {jobs job} (queue : t.queue.jobs = s.queue.jobs ++ jobs) (taken : job ∈ jobs)
    (addressed : w.case ∈ job.cases) (membership : job.change.membership = w.change.membership)
    (unnamed : w.case ∉ done.failures.map Failure.case)
    : w.Through done s t .durableQueue

/-- (w.Refused done s t mode) says that the write w has failed: between the stores s and t its case
was left as it was, and the propagation done names the failure. The queue refuses no write by
itself.
-/
inductive CaseWrite.Refused (w : CaseWrite) (done : Propagation) (s t : Stores)
    : PropagationMode → Prop where
  | failed (unchanged : t.cases.records.get? w.case = s.cases.records.get? w.case)
    (named : w.case ∈ done.failures.map Failure.case)
    : w.Refused done s t .synchronousFanOut

/-- (Propagated plan mode done s t) says that the propagation done tells what has become of the
writes of the plan between the stores s and t.
-/
structure Propagated (plan : PropagationPlan) (mode : PropagationMode) (done : Propagation)
    (s t : Stores) : Prop where
  planned : ∀ case ∈ done.written, case ∈ plan.writes.map CaseWrite.case
  through : ∀ w ∈ plan.writes, w.case ∈ done.written → w.Through done s t mode
  refused : ∀ w ∈ plan.writes, w.case ∉ done.written → w.Refused done s t mode
  keyed : t.cases.Keyed

namespace Coordinator

variable {k : Coordinator} {s t : Stores} {reference : MultipleReference}
  {expected : Option UInt64} {plan : PropagationPlan} {mode : PropagationMode}
  {done : Propagation}

/-- A write that goes into the queue is addressed by a job with the same membership, since jobs
carry the changes of writes and no other write is to its case.
-/
theorem exists_jobsOf (k : Coordinator) (reference : MultipleReference)
    (expected : Option UInt64) (now : Timestamp) {w : CaseWrite}
    (distinct : (plan.writes.map CaseWrite.case).Nodup) (member : w ∈ plan.writes)
    : ∃ job ∈ k.jobsOf reference expected plan now,
        w.case ∈ job.cases ∧ job.change.membership = w.change.membership := by
  have addressed := (k.cases_jobsOf reference expected plan now).mem_iff.mpr
    (List.mem_map_of_mem (f := CaseWrite.case) member)
  obtain ⟨job, built, addressed⟩ := List.mem_flatMap.mp addressed
  have carried : (⟨w.case, job.change⟩ : CaseWrite) ∈ job.writes :=
    List.mem_map.mpr ⟨w.case, addressed, rfl⟩
  have same : ⟨w.case, job.change⟩ = w :=
    List.inj_on_of_nodup_map distinct (mem_writes_jobsOf built carried) member rfl
  exact ⟨job, built, addressed, congrArg (·.change.membership) same⟩

/-- On either way a propagation reports what has become of its writes. -/
theorem propagate_propagated (distinct : (plan.writes.map CaseWrite.case).Nodup)
    (keyed : s.cases.Keyed)
    (returns : (k.propagate reference expected plan mode).Returns s done t)
    : Propagated plan mode done s t := by
  cases mode with
  | synchronousFanOut =>
      have fanned := propagate_synchronous.mp returns
      have wrote := k.fanOutPlan_wrote plan s
      obtain ⟨fault, report, delivered, _⟩ := k.fanOutPlan_delivered plan distinct keyed
      rw [fanned] at report delivered wrote
      subst report
      have written : ∀ case, case ∈ (Propagation.ofFaults fault plan.writes).written
          ↔ case ∈ plan.writes.map CaseWrite.case ∧ fault case = none :=
        fun _ => Propagation.mem_written_ofFaults
      have named : ∀ case, case ∈ (Propagation.ofFaults fault plan.writes).failures.map Failure.case
          ↔ (fault case).isSome :=
        fun _ => Propagation.mem_failures_ofFaults delivered
      refine ⟨fun case member => ((written case).mp member).1, fun w member through => ?_,
        fun w member refused => ?_, wrote.keyed keyed⟩
      · have free := ((written w.case).mp through).2
        obtain ⟨c, stored, applied⟩ := delivered.applied member free
        exact .applied stored applied fun failed => by simpa [free] using (named _).mp failed
      · cases failed : fault w.case with
        | none => exact absurd ((written _).mpr ⟨List.mem_map_of_mem member, failed⟩) refused
        | some failure =>
            exact .failed (delivered.refused failed) ((named _).mpr (by rw [failed]; rfl))
  | durableQueue =>
      obtain ⟨queued, written, none⟩ := enqueuePlan_returns returns
      refine ⟨fun case => (written case).mp, fun w member _ => ?_, fun w member refused => ?_,
        by rw [queued.cases]; exact keyed⟩
      · obtain ⟨job, built, addressed, membership⟩ :=
          k.exists_jobsOf reference expected (.ofMillis s.clock) distinct member
        exact .enqueued queued.jobs built addressed membership (by rw [none]; simp)
      · exact absurd ((written _).mpr (List.mem_map_of_mem member)) refused

end Coordinator

/-- A write of whose failure nothing is said was through. -/
theorem Propagated.written_of_unnamed {plan : PropagationPlan} {mode : PropagationMode}
    {done : Propagation} {s t : Stores} (propagated : Propagated plan mode done s t)
    {w : CaseWrite} (member : w ∈ plan.writes)
    (unnamed : w.case ∉ done.failures.map Failure.case)
    : w.case ∈ done.written := by
  refine Decidable.byContradiction fun absent => ?_
  cases propagated.refused w member absent with
  | failed _ named => exact unnamed named

/-- The queue has taken the writes of a propagation that returns. -/
theorem Propagated.written_of_queued {plan : PropagationPlan} {done : Propagation} {s t : Stores}
    (propagated : Propagated plan .durableQueue done s t) {w : CaseWrite}
    (member : w ∈ plan.writes)
    : w.case ∈ done.written := by
  refine Decidable.byContradiction fun absent => ?_
  cases propagated.refused w member absent

-----------------------------------------------------------------------------------------
-- The members of both sides
-----------------------------------------------------------------------------------------

namespace Movement.Prepared

variable {m : Movement} {request : RoundRequest} {s : Stores} {case : CaseReference}
  {written : List CaseReference} (prepared : m.Prepared request s)

include prepared

/-- The target keeps its members and is joined by those who leave the source and were written. -/
theorem mem_target
    : case ∈ (m.target.members written).map Member.case
      ↔ case ∈ m.target.multiple.memberReferences
        ∨ case ∈ m.source.delta.toDetach ∧ case ∈ written := by
  rw [prepared.target.mem_members, prepared.toDetach_target, prepared.target.splits.mem_toAttach,
    prepared.mem_proposed]
  by_cases old : case ∈ m.target.multiple.memberReferences
  · simp [old]
  · simp only [old, false_or, not_false_eq_true, and_true, List.not_mem_nil, false_and, or_false]
    exact and_congr_right fun leaves => ⟨fun joins => joins leaves, fun done _ => done⟩

/-- The source keeps its members, those who leave it and were written excepted. -/
theorem mem_source
    : case ∈ (m.source.members written).map Member.case
      ↔ case ∈ m.source.multiple.memberReferences
        ∧ (case ∈ m.source.delta.toDetach → case ∉ written) := by
  have splits := prepared.source.splits
  rw [prepared.source.mem_members, prepared.nobody_joins]
  constructor
  · rintro (⟨proposed, _⟩ | ⟨leaves, absent⟩)
    · exact ⟨prepared.member_of_proposed_source proposed,
        fun leaves => absurd proposed (splits.mem_toDetach.mp leaves).2⟩
    · exact ⟨(splits.mem_toDetach.mp leaves).1, fun _ => absent⟩
  · rintro ⟨member, absent⟩
    by_cases leaves : case ∈ m.source.delta.toDetach
    · exact .inr ⟨leaves, absent leaves⟩
    · have proposed : case ∈ m.source.delta.proposed := Decidable.byContradiction fun other =>
        leaves (splits.mem_toDetach.mpr ⟨member, other⟩)
      exact .inl ⟨proposed, fun joins => nomatch joins⟩

theorem nodup_writes_source
    : ((PropagationPlan.writes { m.source.plan with detach := [] }).map CaseWrite.case).Nodup :=
  prepared.source.nodup_write

/-- The writes of the source are to cases that stay, so whoever leaves was written for the target.
-/
theorem mem_written_of_leaves {toTarget toSource : List CaseReference}
    (planned : ∀ case ∈ toSource, case ∈ m.source.plan.write.map CaseWrite.case)
    (leaves : case ∈ m.source.delta.toDetach)
    : case ∈ toTarget ++ toSource ↔ case ∈ toTarget := by
  rw [List.mem_append, or_iff_left]
  intro stays
  obtain ⟨w, member, rfl⟩ := List.mem_map.mp (planned case stays)
  exact (prepared.source.splits.mem_toDetach.mp leaves).2 (prepared.source.proposed member)

end Movement.Prepared

-----------------------------------------------------------------------------------------
-- Moves that return
-----------------------------------------------------------------------------------------

/-- Cases stay under their own references in all parts of a round. -/
theorem CaseStore.keyed_kept : Kept fun s => s.cases.Keyed where
  asked := fun keyed asked => asked.keyed keyed
  wrote := fun keyed wrote => wrote.keyed keyed
  commit := fun _ _ _ _ keyed => keyed
  enqueue := fun _ _ keyed => keyed

/-- (m.Divided written movedTo record) says that the two records list the members of both sides of
the movement, divided by which cases were written for the target.
-/
structure Movement.Divided (m : Movement) (written : List CaseReference) (movedTo record : Multiple)
    : Prop where
  target
    : ∀ case,
        case ∈ movedTo.memberReferences
        ↔ case ∈ m.target.multiple.memberReferences
          ∨ case ∈ m.source.delta.toDetach ∧ case ∈ written
  source
    : ∀ case,
        case ∈ record.memberReferences
        ↔ case ∈ m.source.multiple.memberReferences
          ∧ (case ∈ m.source.delta.toDetach → case ∉ written)

namespace Coordinator

variable {k : Coordinator} {s t u : Stores} {request : RoundRequest} {outcome : RoundOutcome}
  {m : Movement}

/-- A commit that succeeds gives the record with the members that it was given. -/
theorem record_of_commit {r : Reconciliation} {members : List Member} {record : Multiple}
    (returns : (k.commit r members).Returns s record t)
    : record = (r.record members).withVersion (MultipleStore.successor r.expected) :=
  MultipleStore.record_of_commit (Stores.multiples_commit (Round.returns_multiples.mp returns))

/-- A record that is committed after settling lists the members that the writes have left. -/
theorem memberReferences_of_commit {r : Reconciliation} {written : List CaseReference}
    {members : List Member} {failures : List Failure} {record : Multiple} {v w : Stores}
    (settles : (k.settle r written).Returns s (members, failures) t)
    (commits : (k.commit r members).Returns v record w)
    : record.memberReferences = (r.members written).map Member.case := by
  rw [record_of_commit commits, ← cases_of_settle settles]
  rfl

/-- The propagations of a movement report what has become of their writes on both sides. -/
theorem propagated_both {toTarget toSource : Propagation} {v : Stores}
    (prepared : m.Prepared request s) (keyed : u.cases.Keyed)
    (target
      : (k.propagate m.target.reference m.target.expected m.target.plan m.target.mode).Returns u
          toTarget v)
    (source
      : (k.propagate m.source.reference m.source.expected { m.source.plan with detach := [] }
          m.source.mode).Returns v toSource t)
    : Propagated m.target.plan m.target.mode toTarget u v
      ∧ Propagated { m.source.plan with detach := [] } m.source.mode toSource v t := by
  have propagated := propagate_propagated prepared.target.nodup_writes keyed target
  exact ⟨propagated, propagate_propagated prepared.nodup_writes_source propagated.keyed source⟩

/-- The writes of the source are to cases that stay there, so only those for the target divide the
members.
-/
theorem Moved.divided (moved : Moved k m u outcome t) (prepared : m.Prepared request s)
    (keyed : u.cases.Keyed)
    : ∃ movedTo done v,
        outcome.movedTo = some movedTo
        ∧ (k.propagate m.target.reference m.target.expected m.target.plan m.target.mode).Returns u
            done v
        ∧ Propagated m.target.plan m.target.mode done u v
        ∧ m.Divided done.written movedTo outcome.multiple
        ∧ done.failures ⊆ outcome.failures := by
  obtain ⟨target, source, targetSettled, sourceSettled, targetCommitted, sourceCommitted, movedTo,
    failed⟩ := moved
  obtain ⟨propagated, other⟩ := propagated_both prepared keyed target source
  refine ⟨_, _, _, movedTo, target, propagated, ?_, ?_⟩
  · constructor
    · intro case
      rw [memberReferences_of_commit targetSettled targetCommitted, prepared.mem_target]
      exact or_congr_right (and_congr_right (prepared.mem_written_of_leaves other.planned))
    · intro case
      rw [memberReferences_of_commit sourceSettled sourceCommitted, prepared.mem_source]
      exact and_congr_right fun _ => forall_congr' fun leaves =>
        not_congr (prepared.mem_written_of_leaves other.planned leaves)
  · rw [failed]
    intro failure member
    simp [member]

/-- A round with a target that returns has prepared a movement to it and carried it out. -/
theorem updateBulk_moved {request : BulkUpdate} {target : MultipleReference}
    (keyed : s.cases.Keyed) (filed : s.multiples.Filed) (named : request.target = some target)
    (returns : (k.updateBulk request).Returns s outcome t)
    : ∃ m u,
        (k.prepare (.update request)).Returns s (.move m) u
        ∧ m.Prepared (.update request) s
        ∧ m.target.reference = target
        ∧ u.cases.Keyed
        ∧ Moved k m u outcome t := by
  obtain ⟨work, u, prepares, performs⟩ := carryOut_returns
    (show (k.carryOut (.update request)).Returns s outcome t from returns)
  have asked := asked_of_prepare prepares
  obtain ⟨m, rfl, prepared, reference⟩ := (prepares_of_returns prepares).moves filed named
  exact ⟨m, u, prepares, prepared, reference, asked.keyed keyed, move_returns performs⟩

-----------------------------------------------------------------------------------------
-- No member is lost or made up
-----------------------------------------------------------------------------------------

/-- (k.Attaches request s case P) says that the move of the request on the stores s, once its
questions are asked, has a write by which the case is to join the target, and that P holds of this
write, the propagation for the target, the stores before and after it, and its mode.
-/
inductive Attaches (k : Coordinator) (request : BulkUpdate) (s : Stores) (case : CaseReference)
    (P : CaseWrite → Propagation → Stores → Stores → PropagationMode → Prop) : Prop where
  | steps {m u done v w} (prepared : (k.prepare (.update request)).Returns s (.move m) u)
    (propagated
      : (k.propagate m.target.reference m.target.expected m.target.plan m.target.mode).Returns u
          done v)
    (planned : w ∈ m.target.plan.write) (same : w.case = case)
    (joins : w.change.membership = .attach m.target.reference)
    (becomes : P w done u v m.target.mode)

/-- When a round with a target returns, both records together have the members of the request's
record and of the stored target. The target keeps its own, the source those that were not matched.
Every other matched member is in one of the two, in the target exactly if its attach was written or
taken by the queue.
-/
theorem updateBulk_conserves_members (k : Coordinator) {request : BulkUpdate}
    {target : MultipleReference} (keyed : s.cases.Keyed) (filed : s.multiples.Filed)
    (named : request.target = some target)
    (returns : (k.updateBulk request).Returns s outcome t)
    : ∃ stored movedTo,
        s.multiples.records.get? target = some stored
        ∧ outcome.movedTo = some movedTo
        ∧ (∀ case,
            case ∈ movedTo.memberReferences ∨ case ∈ outcome.multiple.memberReferences
            ↔ case ∈ stored.memberReferences ∨ case ∈ request.multiple.memberReferences)
        ∧ (∀ case ∈ stored.memberReferences, case ∈ movedTo.memberReferences)
        ∧ (∀ case ∈ request.multiple.memberReferences,
            case ∉ request.matched → case ∈ outcome.multiple.memberReferences)
        ∧ ∀ case ∈ request.multiple.memberReferences,
            case ∈ request.matched
            → case ∉ stored.memberReferences
            → (case ∈ movedTo.memberReferences
                ∧ case ∉ outcome.multiple.memberReferences
                ∧ k.Attaches request s case CaseWrite.Through)
              ∨ (case ∉ movedTo.memberReferences
                ∧ case ∈ outcome.multiple.memberReferences
                ∧ k.Attaches request s case CaseWrite.Refused) := by
  obtain ⟨m, u, prepares, prepared, rfl, keyed, moved⟩ := updateBulk_moved keyed filed named returns
  obtain ⟨movedTo, done, v, moves, propagates, propagated, divided, _⟩ :=
    moved.divided prepared keyed
  have leaves : ∀ case, case ∈ m.source.delta.toDetach
      ↔ case ∈ request.matched ∧ case ∈ request.multiple.memberReferences :=
    fun _ => (prepares_of_returns prepares).leaves
  have listed : m.source.multiple = request.multiple := prepared.carried
  have target := divided.target
  have source := divided.source
  simp only [leaves, listed] at target source
  refine ⟨m.target.multiple, movedTo, prepared.stored, moves, fun case => ?_, ?_, ?_, ?_⟩
  · rw [target, source]
    tauto
  · exact fun case member => (target case).mpr (.inl member)
  · exact fun case member stays => (source case).mpr ⟨member, fun leaves => absurd leaves.1 stays⟩
  · intro case member matched absent
    have joins : case ∈ m.target.delta.toAttach :=
      prepared.target.splits.mem_toAttach.mpr
        ⟨(prepared.mem_proposed case).mpr (.inr ((leaves case).mpr ⟨matched, member⟩)), absent⟩
    have planned := Reconciliation.attach_mem_plan joins
    have attaches : ∀ {P : CaseWrite → Propagation → Stores → Stores → PropagationMode → Prop},
        P _ done u v m.target.mode → k.Attaches request s case P := fun becomes =>
      .steps prepares propagates planned rfl
        (prepared.target.membership_of_joins planned joins) becomes
    rw [target, source]
    by_cases written : case ∈ done.written
    · refine .inl ⟨.inr ⟨⟨matched, member⟩, written⟩, fun stays => ?_, ?_⟩
      · exact stays.2 ⟨matched, member⟩ written
      · exact attaches (propagated.through _ (List.mem_append_right _ planned) written)
    · refine .inr ⟨fun joined => ?_, ⟨member, fun _ => written⟩, ?_⟩
      · exact written (joined.resolve_left absent).2
      · exact attaches (propagated.refused _ (List.mem_append_right _ planned) written)

end Coordinator

namespace Sample

/-- The record of the first multiple as another round has committed it, with both cases. -/
def both : Multiple :=
  { record.withMembers [{ case := one, lead := true }, { case := two }] with version := some 2 }

/-- Some of the cases are to move from there to the other multiple. -/
def movingOn (mode : PropagationMode) (matched : List CaseReference) : BulkUpdate :=
  { multiple := both, matched, target := other, mode }

/-- Writes to the second case bring down their worker by now. -/
def hindered : Stores :=
  { advanced with cases := { advanced.cases with crashing := [two] } }

theorem reachable_hindered : hindered.Reachable :=
  have inMemory := reachable_advanced.inMemory
  .set reachable_advanced rfl rfl inMemory.unset inMemory.hooks

/-- Of two cases that are to move, the one whose write fails stays in the source. -/
theorem members_divided_by_crash
    : ∃ outcome t stored movedTo,
        (coordinator.updateBulk (movingOn .synchronousFanOut [one, two])).Returns hindered outcome t
        ∧ outcome.movedTo = some movedTo
        ∧ movedTo.memberReferences = [one]
        ∧ outcome.multiple.memberReferences = [two]
        ∧ hindered.multiples.records.get? other = some stored
        ∧ ∀ case,
            case ∈ movedTo.memberReferences ∨ case ∈ outcome.multiple.memberReferences
            ↔ case ∈ stored.memberReferences ∨ case ∈ both.memberReferences := by
  have inMemory := reachable_hindered.inMemory
  obtain ⟨outcome, t, returns, target, source⟩
      : ∃ outcome t,
          (coordinator.updateBulk (movingOn .synchronousFanOut [one, two])).Returns hindered
            outcome t
          ∧ outcome.movedTo.map Multiple.memberReferences = some [one]
          ∧ outcome.multiple.memberReferences = [two] :=
    ⟨_, _, rfl, by decide +kernel, by decide +kernel⟩
  obtain ⟨stored, movedTo, found, moved, together, _⟩ :=
    coordinator.updateBulk_conserves_members inMemory.keyed inMemory.filed rfl returns
  rw [moved] at target
  exact ⟨outcome, t, stored, movedTo, returns, moved, Option.some.inj target, source, found,
    together⟩

end Sample

end CaseGrouping
