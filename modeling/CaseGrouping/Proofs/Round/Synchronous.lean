import CaseGrouping.Proofs.Round.Performing

/-! Work that is done through the pool, from the stores it began on to those it leaves: which writes
were delivered, how the members were settled, and which records were replaced.
-/

namespace CaseGrouping

/-- (r.Done s outcome t) says what a reconciliation has done to the stores. -/
inductive Reconciliation.Done (r : Reconciliation) (s : Stores) (outcome : RoundOutcome)
    (t : Stores) : Prop where
  | intro {fault between members settling}
    (delivered : Delivered fault r.plan.writes s.cases.records between)
    (settled
      : r.Settled (Propagation.ofFaults fault r.plan.writes).written between t.cases.records
          members settling)
    (committed : r.Committed members outcome.multiple s.multiples t.multiples)
    (movedTo : outcome.movedTo = none)
    (failed
      : outcome.failures
        = r.failures ++ (Propagation.ofFaults fault r.plan.writes).failures ++ settling)

/-- (m.Done s outcome t) says what a move between multiples that share no case has done to the
stores.
-/
inductive Movement.Done (m : Movement) (s : Stores) (outcome : RoundOutcome) (t : Stores)
    : Prop where
  | intro {fault between middle targetMembers targetSettling sourceMembers sourceSettling movedTo}
    (delivered : Delivered fault m.writes s.cases.records between)
    (targetSettled
      : m.target.Settled (Propagation.ofFaults fault m.writes).written between middle
          targetMembers targetSettling)
    (sourceSettled
      : m.source.Settled (Propagation.ofFaults fault m.writes).written middle t.cases.records
          sourceMembers sourceSettling)
    (committed
      : m.Committed targetMembers sourceMembers movedTo outcome.multiple s.multiples t.multiples)
    (moved : outcome.movedTo = some movedTo)
    (failed
      : outcome.failures
        = m.strangers ++ (Propagation.ofFaults fault m.writes).failures ++ targetSettling
          ++ sourceSettling)

/-- What the work of a round has done to the stores. -/
def Work.Done (s : Stores) (outcome : RoundOutcome) (t : Stores) : Work → Prop
  | .reconcile r => r.Done s outcome t
  | .move m => m.Done s outcome t

/-- Questions that were asked before make no difference to what has been done. -/
theorem Work.Done.asked {work : Work} {s u t : Stores} {outcome : RoundOutcome}
    (done : work.Done u outcome t) (asked : s.Asked u)
    : work.Done s outcome t := by
  have version : ∀ r, u.multiples.version? r = s.multiples.version? r := fun r => by
    rw [MultipleStore.version?, MultipleStore.version?, asked.multiples]
  cases work with
  | reconcile r =>
      obtain ⟨delivered, settled, ⟨fresh, record, stored⟩, movedTo, failed⟩ := done
      rw [asked.cases] at delivered
      rw [version] at fresh
      rw [asked.multiples] at stored
      exact .intro delivered settled ⟨fresh, record, stored⟩ movedTo failed
  | move m =>
      obtain ⟨delivered, target, source, committed, moved, failed⟩ := done
      obtain ⟨targetFresh, sourceFresh, targetRecord, sourceRecord, stored⟩ := committed
      rw [asked.cases] at delivered
      rw [version] at targetFresh sourceFresh
      rw [asked.multiples] at stored
      exact .intro delivered target source
        ⟨targetFresh, sourceFresh, targetRecord, sourceRecord, stored⟩ moved failed

namespace Coordinator

variable {k : Coordinator} {request : RoundRequest} {s t u v : Stores} {outcome : RoundOutcome}

theorem Reconciled.done {r : Reconciliation} (reconciled : Reconciled k r s outcome t)
    (posed : r.WellPosed) (own : r.multiple.reference = some r.reference)
    (mode : r.mode = .synchronousFanOut) (inMemory : s.InMemory)
    : r.Done s outcome t := by
  obtain ⟨propagated, settled, committed, movedTo, failed⟩ := reconciled
  rename_i done u members settling v
  rw [mode, propagate_synchronous] at propagated
  have wrote := k.fanOutPlan_wrote r.plan s
  obtain ⟨fault, report, delivered, _⟩ :=
    k.fanOutPlan_delivered r.plan posed.nodup_writes inMemory.keyed
  rw [propagated] at wrote report delivered
  dsimp only at wrote report delivered
  have inMemory := inMemory.wrote wrote
  obtain ⟨wrote', settled⟩ := settle_synchronous mode inMemory.keyed settled
  obtain ⟨committed, _, cases⟩ :=
    commit_returns own (inMemory.wrote wrote').hooks committed
  rw [wrote'.multiples.trans wrote.multiples] at committed
  rw [← cases] at settled
  subst report
  exact .intro delivered settled committed movedTo failed

/-- The two propagations of a move through the pool are one delivery, as no case is written to by
both sides.
-/
theorem move_delivered {m : Movement} {x : Stores} {toTarget toSource : Propagation}
    (prepared : m.Prepared request x) (apart : m.Apart) (keyed : s.cases.Keyed)
    (target : k.fanOutPlan m.target.plan s = (toTarget, u))
    (source : k.fanOutPlan { m.source.plan with detach := [] } u = (toSource, v))
    : ∃ fault,
        Delivered fault m.writes s.cases.records v.cases.records
        ∧ toTarget.written ++ toSource.written = (Propagation.ofFaults fault m.writes).written
        ∧ toTarget.failures ++ toSource.failures
          = (Propagation.ofFaults fault m.writes).failures := by
  obtain ⟨f, toTargetReport, first, _⟩ :=
    k.fanOutPlan_delivered m.target.plan prepared.target.nodup_writes keyed
  have wrote := k.fanOutPlan_wrote m.target.plan s
  rw [target, prepared.writes_target] at toTargetReport first
  rw [target] at wrote
  obtain ⟨g, toSourceReport, next, _⟩ :=
    k.fanOutPlan_delivered { m.source.plan with detach := [] } prepared.source.nodup_write
      (wrote.keyed keyed)
  rw [source] at toSourceReport next
  change Delivered f m.target.plan.write s.cases.records u.cases.records at first
  change Delivered g m.source.plan.write u.cases.records v.cases.records at next
  have report := Propagation.ofFaults_append first next (prepared.disjoint_writes apart)
  change toTarget = _ at toTargetReport
  change toSource = .ofFaults g m.source.plan.write at toSourceReport
  rw [← toTargetReport, ← toSourceReport] at report
  exact ⟨_, first.append next (prepared.disjoint_writes apart),
    (congrArg Propagation.written report).symm, (congrArg Propagation.failures report).symm⟩

/-- A move through the pool that returns is done, if its multiples share no case. -/
theorem Moved.done {m : Movement} {x : Stores} (moved : Moved k m s outcome t)
    (prepared : m.Prepared request x) (apart : m.Apart)
    (mode : request.mode = .synchronousFanOut) (inMemory : s.InMemory)
    : m.Done s outcome t := by
  obtain ⟨target, source, targetSettled, sourceSettled, targetCommitted, sourceCommitted, movedTo,
    failed⟩ := moved
  rename_i toTarget u toSource v _ _ w _ _ x committed y
  have targetMode := prepared.targetMode.trans mode
  have sourceMode := prepared.sourceMode.trans mode
  rw [targetMode, propagate_synchronous] at target
  rw [sourceMode, propagate_synchronous] at source
  obtain ⟨fault, delivered, written, failures⟩ :=
    move_delivered prepared apart inMemory.keyed target source
  have wrote := k.fanOutPlan_wrote m.target.plan s
  have wrote' := k.fanOutPlan_wrote { m.source.plan with detach := [] } u
  rw [target] at wrote
  rw [source] at wrote'
  have inMemory := (inMemory.wrote wrote).wrote wrote'
  rw [written] at targetSettled sourceSettled
  rw [List.append_assoc m.strangers, failures] at failed
  obtain ⟨wroteTarget, targetSettled⟩ :=
    settle_synchronous targetMode inMemory.keyed targetSettled
  have inMemory := inMemory.wrote wroteTarget
  obtain ⟨wroteSource, sourceSettled⟩ :=
    settle_synchronous sourceMode inMemory.keyed sourceSettled
  obtain ⟨committed, cases⟩ := commits_return prepared (inMemory.wrote wroteSource).hooks
    targetCommitted sourceCommitted
  -- The commits find the records that were stored when the round began.
  rw [wroteSource.multiples, wroteTarget.multiples, wrote'.multiples, wrote.multiples] at committed
  rw [← cases] at sourceSettled
  exact .intro delivered targetSettled sourceSettled committed movedTo failed

end Coordinator

end CaseGrouping
