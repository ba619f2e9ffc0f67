import CaseGrouping.Proofs.Durable.Replay

/-! Rounds whose writes all go through. On either way they come to the same completion: everybody is
where the plan has put them, nobody has failed, and what is left is to commit the records.
-/

namespace CaseGrouping

-----------------------------------------------------------------------------------------
-- Plans that meet no fault
-----------------------------------------------------------------------------------------

/-- (done.Complete plan) says that all writes of a plan were done, in whatever order. -/
structure Propagation.Complete (plan : PropagationPlan) (done : Propagation) : Prop where
  written : ∀ r, r ∈ done.written ↔ r ∈ plan.writes.map CaseWrite.case
  failures : done.failures = []

namespace Coordinator

variable (k : Coordinator) (reference : MultipleReference) (expected : Option UInt64)
  (plan : PropagationPlan) {s : Stores}

/-- A plan for cases that accept writes goes through the pool without a fault. -/
theorem propagate_of_accepts (distinct : (plan.writes.map CaseWrite.case).Nodup)
    (keyed : s.cases.Keyed)
    (accepts : ∀ r ∈ plan.writes.map CaseWrite.case, s.cases.Accepts r)
    : ∃ done t,
        (k.propagate reference expected plan .synchronousFanOut).Returns s done t
        ∧ done.Complete plan
        ∧ done.acknowledgements = []
        ∧ s.Wrote t
        ∧ t.cases.records = afterWrites s.cases.records plan.writes := by
  obtain ⟨fault, report, delivered, told⟩ := k.fanOutPlan_delivered plan distinct keyed
  have told := fun r member => told r member (accepts r member).unhindered
  have free : ∀ r ∈ plan.writes.map CaseWrite.case, fault r = none := by
    intro r member
    rw [told r member, absence?, if_pos (accepts r member).stored]
  rw [Propagation.ofFaults_of_free free] at report
  exact ⟨_, _, propagate_synchronous.mpr (Prod.ext report rfl), ⟨fun _ => .rfl, rfl⟩, rfl,
    k.fanOutPlan_wrote plan s, delivered.eq_afterWrites told distinct⟩

/-- A plan is handed to a queue without faults as jobs that carry its writes. -/
theorem propagate_of_free (free : s.queue.faults = [])
    : ∃ done jobs t,
        (k.propagate reference expected plan .durableQueue).Returns s done t
        ∧ done.Complete plan
        ∧ s.Queued jobs t
        ∧ (jobs.flatMap Job.writes).Perm plan.writes := by
  obtain ⟨done, t, returns⟩ := k.enqueuePlan_of_takes reference expected plan (.inl free)
  obtain ⟨queued, written, failures⟩ := enqueuePlan_returns returns
  exact ⟨done, _, t, returns, ⟨written, failures⟩, queued,
    k.writes_jobsOf reference expected plan _⟩

end Coordinator

-----------------------------------------------------------------------------------------
-- Completion
-----------------------------------------------------------------------------------------

namespace Work

/-- All writes of the work of a round. -/
def writes : Work → List CaseWrite
  | .reconcile r => r.plan.writes
  | .move m => m.writes

/-- The multiples of a move share no case. -/
def Apart : Work → Prop
  | .reconcile _ => True
  | .move m => m.Apart

theorem Prepared.nodup_writes {work : Work} {request : RoundRequest} {s : Stores}
    (prepared : work.Prepared request s) (apart : work.Apart)
    : (work.writes.map CaseWrite.case).Nodup := by
  cases work with
  | reconcile r => exact prepared.posed.nodup_writes
  | move m => exact Movement.Prepared.nodup_writes prepared apart

end Work

namespace Coordinator

/-- What is left of a round once all its writes are through, when a number of jobs was enqueued: the
records are committed with everybody in place.
-/
def complete (k : Coordinator) (jobs : Nat) : Work → Round RoundOutcome
  | .reconcile r => do
      let committed ← k.commit r (r.members (r.plan.writes.map CaseWrite.case))
      return {
        multiple := committed
        failures := r.failures
        mode := r.mode
        enqueuedJobs := jobs }
  | .move m => do
      let written := m.writes.map CaseWrite.case
      let committedTarget ← k.commit m.target (m.target.members written)
      let committedSource ← k.commit m.source (m.source.members written)
      return {
        multiple := committedSource
        movedTo := some committedTarget
        failures := m.strangers
        mode := m.source.mode
        enqueuedJobs := jobs }

variable {k : Coordinator} {s t u v : Stores} {request : RoundRequest} {r : Reconciliation}
  {m : Movement} {done toTarget toSource : Propagation} {written : List CaseReference}

/-- Settling has nothing to do once all writes were done, as the chosen lead has its flag. -/
theorem settle_of_done (posed : r.WellPosed) (valid : r.multiple.validateIncoming = .ok ())
    (own : r.multiple.reference = some r.reference)
    (done : ∀ w ∈ r.plan.write, w.case ∈ written)
    (leaves : ∀ case ∈ r.delta.toDetach, case ∈ written) (s : Stores)
    : (k.settle r written).Returns s (r.members written, []) s := by
  unfold settle settleMembers
  dsimp only
  split
  · exact Round.returns_pure.mpr ⟨rfl, rfl⟩
  · refine Round.returns_bind.mpr
      ⟨(), s, checkReference_returns own, Round.returns_attempt.mpr ?_⟩
    refine repairLead_of_claims (posed.flagged_members written) ?_
      (fun case lead => posed.claims_of_done valid done lead) s
    have joins : ∀ case ∈ r.delta.toAttach, case ∈ written := fun case joins =>
      done _ (Reconciliation.attach_mem_plan joins)
    rw [Reconciliation.cases_members_of_done joins leaves]
    exact posed.leads

/-- A reconciliation whose writes all went through is completed. -/
theorem reconcile_of_complete (posed : r.WellPosed)
    (valid : r.multiple.validateIncoming = .ok ())
    (own : r.multiple.reference = some r.reference)
    (propagated : (k.propagate r.reference r.expected r.plan r.mode).Returns s done t)
    (complete : done.Complete r.plan)
    : (k.reconcile r).runOn s
      = (k.complete done.acknowledgements.length (.reconcile r)).runOn t := by
  have settled : (k.settle r done.written).Returns t
      (r.members (r.plan.writes.map CaseWrite.case), []) t := by
    rw [← Reconciliation.members_congr complete.written]
    refine settle_of_done posed valid own (fun w member => ?_) (fun case leaves => ?_) t
    · exact (complete.written _).mpr
        (List.mem_map_of_mem (List.mem_append_right _ member))
    · exact (complete.written _).mpr
        (List.mem_map_of_mem (List.mem_append_left _ (Reconciliation.detach_mem_plan leaves)))
  rw [reconcile_of_settled own propagated settled]
  simp only [complete.failures, List.append_nil]
  rfl

/-- A move whose writes all went through is completed. -/
theorem move_of_complete (prepared : m.Prepared request u) (apart : m.Apart)
    (target
      : (k.propagate m.target.reference m.target.expected m.target.plan m.target.mode).Returns s
          toTarget t)
    (source
      : (k.propagate m.source.reference m.source.expected { m.source.plan with detach := [] }
          m.source.mode).Returns t toSource v)
    (toTargetComplete : toTarget.Complete m.target.plan)
    (toSourceComplete : toSource.Complete { m.source.plan with detach := [] })
    : (k.move m).runOn s
      = (k.complete (toTarget.acknowledgements.length + toSource.acknowledgements.length)
          (.move m)).runOn v := by
  let written := toTarget.written ++ toSource.written
  have same : ∀ case, case ∈ written ↔ case ∈ m.writes.map CaseWrite.case := by
    intro case
    rw [List.mem_append, toTargetComplete.written, toSourceComplete.written,
      prepared.writes_target, Movement.writes, List.map_append, List.mem_append]
    rfl
  have targetSettled : (k.settle m.target written).Returns v
      (m.target.members (m.writes.map CaseWrite.case), []) v := by
    rw [← Reconciliation.members_congr same]
    refine settle_of_done prepared.target prepared.targetValid prepared.targetOwn
      (fun w member => ?_) (fun case leaves => ?_) v
    · exact (same _).mpr (List.mem_map_of_mem (List.mem_append_left _ member))
    · rw [prepared.toDetach_target] at leaves
      cases leaves
  have sourceSettled : (k.settle m.source written).Returns v
      (m.source.members (m.writes.map CaseWrite.case), []) v := by
    rw [← Reconciliation.members_congr same]
    refine settle_of_done prepared.source prepared.sourceValid prepared.own
      (fun w member => ?_) (fun case leaves => ?_) v
    · exact (same _).mpr (List.mem_map_of_mem (List.mem_append_right _ member))
    · have joins := Reconciliation.attach_mem_plan (prepared.joins_target apart leaves)
      exact (same _).mpr (List.mem_map_of_mem (List.mem_append_left _ joins))
  refine (Round.runOn_bind_of_returns target).trans ?_
  refine (Round.runOn_bind_of_returns source).trans ?_
  refine (Round.runOn_bind_of_returns targetSettled).trans ?_
  refine (Round.runOn_bind_of_returns sourceSettled).trans ?_
  simp only [toTargetComplete.failures, toSourceComplete.failures, List.append_nil]
  rfl

-----------------------------------------------------------------------------------------
-- Both ways
-----------------------------------------------------------------------------------------

variable {work : Work}

/-- A round through the pool comes to its completion once all of its writes were applied, if the
cases accept them.
-/
theorem perform_of_accepts (k : Coordinator) (prepared : work.Prepared request u)
    (apart : work.Apart) (mode : request.mode = .synchronousFanOut) (keyed : s.cases.Keyed)
    (accepts : ∀ r ∈ work.writes.map CaseWrite.case, s.cases.Accepts r)
    : ∃ t,
        (k.perform work).runOn s = (k.complete 0 work).runOn t
        ∧ s.Wrote t
        ∧ t.cases.records = afterWrites s.cases.records work.writes := by
  cases work with
  | reconcile r =>
      obtain ⟨done, t, returns, complete, none, wrote, records⟩ :=
        k.propagate_of_accepts r.reference r.expected r.plan prepared.posed.nodup_writes keyed
          accepts
      rw [← mode, ← prepared.mode] at returns
      have ends :=
        reconcile_of_complete prepared.posed prepared.valid prepared.reference returns complete
      rw [none] at ends
      exact ⟨t, ends, wrote, records⟩
  | move m =>
      have accepts : ∀ r ∈ m.writes.map CaseWrite.case, s.cases.Accepts r := accepts
      rw [Movement.writes, List.map_append] at accepts
      have toTarget := fun r member => accepts r (List.mem_append_left _ member)
      rw [← prepared.writes_target] at toTarget
      obtain ⟨done, t, returns, complete, none, wrote, records⟩ :=
        k.propagate_of_accepts m.target.reference m.target.expected m.target.plan
          prepared.target.nodup_writes keyed toTarget
      have toSource := fun r member =>
        wrote.accepts (accepts r (List.mem_append_right _ member))
      obtain ⟨done', v, returns', complete', none', wrote', records'⟩ :=
        k.propagate_of_accepts m.source.reference m.source.expected
          { m.source.plan with detach := [] } prepared.source.nodup_write (wrote.keyed keyed)
          toSource
      rw [← mode, ← prepared.targetMode] at returns
      rw [← mode, ← prepared.sourceMode] at returns'
      have ends := move_of_complete prepared apart returns returns' complete complete'
      rw [none, none'] at ends
      refine ⟨v, ends, wrote.trans wrote', ?_⟩
      rw [records', records, prepared.writes_target]
      exact (afterWrites_append _ _ _).symm

/-- A round through the queue comes to its completion once its writes were enqueued as jobs, if the
queue has no faults.
-/
theorem perform_of_free (k : Coordinator) (prepared : work.Prepared request u)
    (apart : work.Apart) (mode : request.mode = .durableQueue) (free : s.queue.faults = [])
    : ∃ n jobs t,
        (k.perform work).runOn s = (k.complete n work).runOn t
        ∧ s.Queued jobs t
        ∧ (jobs.flatMap Job.writes).Perm work.writes := by
  cases work with
  | reconcile r =>
      obtain ⟨done, jobs, t, returns, complete, queued, writes⟩ :=
        k.propagate_of_free r.reference r.expected r.plan free
      rw [← mode, ← prepared.mode] at returns
      have ends :=
        reconcile_of_complete prepared.posed prepared.valid prepared.reference returns complete
      exact ⟨_, jobs, t, ends, queued, writes⟩
  | move m =>
      obtain ⟨done, jobs, t, returns, complete, queued, writes⟩ :=
        k.propagate_of_free m.target.reference m.target.expected m.target.plan free
      obtain ⟨done', jobs', v, returns', complete', queued', writes'⟩ :=
        k.propagate_of_free m.source.reference m.source.expected
          { m.source.plan with detach := [] } (queued.free free)
      rw [← mode, ← prepared.targetMode] at returns
      rw [← mode, ← prepared.sourceMode] at returns'
      refine ⟨_, jobs ++ jobs', v,
        move_of_complete prepared apart returns returns' complete complete',
        queued.trans queued', ?_⟩
      rw [List.flatMap_append]
      rw [prepared.writes_target] at writes
      exact writes.append writes'

end Coordinator

end CaseGrouping
