import CaseGrouping.Proofs.Agreement.Movements
import CaseGrouping.Proofs.Round.LeadRepair

/-! How work is done: the writes go out, the members are settled by what was written, and the
records are committed. A round that returns has gone through all of these steps.
-/

namespace CaseGrouping

-----------------------------------------------------------------------------------------
-- Steps
-----------------------------------------------------------------------------------------

/-- The record that a reconciliation commits. -/
def Reconciliation.record (r : Reconciliation) (members : List Member) : Multiple :=
  (r.multiple.withMembers members).clearSearch

/-- (r.Committed members committed before after) says that a side has committed a record with the
members, in place of the one that was stored at the expected version.
-/
structure Reconciliation.Committed (r : Reconciliation) (members : List Member)
    (committed : Multiple) (before after : MultipleStore) : Prop where
  fresh : before.version? r.reference = r.expected
  record : committed = (r.record members).withVersion (MultipleStore.successor r.expected)
  stored : after.records = before.records.insert r.reference committed

/-- (m.Committed targetMembers sourceMembers movedTo record before after) says that a move has
committed a record on each side, both in place of one that was stored before the move.
-/
structure Movement.Committed (m : Movement) (targetMembers sourceMembers : List Member)
    (movedTo record : Multiple) (before after : MultipleStore) : Prop where
  targetFresh : before.version? m.target.reference = m.target.expected
  sourceFresh : before.version? m.source.reference = m.source.expected
  targetRecord
    : movedTo
      = (m.target.record targetMembers).withVersion (MultipleStore.successor m.target.expected)
  sourceRecord
    : record
      = (m.source.record sourceMembers).withVersion (MultipleStore.successor m.source.expected)
  stored
    : after.records
      = (before.records.insert m.target.reference movedTo).insert m.source.reference record

/-- (r.Settled written before after members failures) says that the members of a side were settled
after the given cases were written: an election has been held among them.
-/
def Reconciliation.Settled (r : Reconciliation) (written : List CaseReference)
    (before after : Register CaseReference SingleCase) (members : List Member)
    (failures : List Failure) : Prop :=
  ∃ lead,
    Elected (r.claims written) (leadCandidates (r.members written)) before after lead failures
    ∧ members
      = withLead (r.members written)
          (lead <|> ((r.members written).map Member.case).head?)

/-- The records that a round has committed. -/
def RoundOutcome.records (outcome : RoundOutcome) : List Multiple :=
  outcome.multiple :: outcome.movedTo.toList

namespace Reconciliation.Settled

variable {r : Reconciliation} {written : List CaseReference}
  {before after : Register CaseReference SingleCase} {members : List Member}
  {failures : List Failure} (settled : r.Settled written before after members failures)

include settled

/-- Settling elects a lead among the members. -/
theorem cases : members.map Member.case = (r.members written).map Member.case := by
  obtain ⟨lead, _, rfl⟩ := settled
  exact cases_withLead _ _

/-- A record that is committed with settled members lists their cases. -/
theorem memberReferences {committed : Multiple} {version : UInt64}
    (record : committed = (r.record members).withVersion version)
    : committed.memberReferences = (r.members written).map Member.case := by
  rw [record, ← settled.cases]
  rfl

/-- Settling changes lead flags only. -/
theorem owner (case : CaseReference) : owner? after case = owner? before case := by
  obtain ⟨lead, elected, _⟩ := settled
  exact elected.owner case

/-- Settling changes members only. -/
theorem others {case : CaseReference} (absent : case ∉ (r.members written).map Member.case)
    : after.get? case = before.get? case := by
  obtain ⟨lead, elected, _⟩ := settled
  exact elected.others case fun chosen => absent (elected.mem chosen)

end Reconciliation.Settled

namespace Coordinator

variable {k : Coordinator} {r : Reconciliation} {m : Movement} {s t : Stores}
  {written : List CaseReference} {members : List Member} {failures : List Failure}
  {outcome : RoundOutcome} {request : RoundRequest}

/-- Without a queue the members are settled by repairing the lead. -/
theorem repairLead_of_settle (mode : r.mode = .synchronousFanOut)
    {settled : List Member × List Failure} (settles : (k.settle r written).Returns s settled t)
    : k.repairLead (r.members written) (r.claims written) s = (settled, t) := by
  unfold settle settleMembers at settles
  dsimp only at settles
  split at settles
  next none =>
    have empty : r.members written = [] := none.resolve_left (by simp [mode])
    obtain ⟨rfl, rfl⟩ := Round.returns_pure.mp settles
    change k.repairLead (r.members written) (r.claims written) t = ((r.members written, []), t)
    rw [empty]
    rfl
  · obtain ⟨_, _, checked, repairs⟩ := Round.returns_bind.mp settles
    obtain ⟨_, rfl⟩ := Round.returns_check.mp checked
    exact Round.returns_attempt.mp repairs

/-- So it is for every multiple with a reference, also if it has no members. -/
theorem settle_eq_repairLead (own : r.multiple.reference = some r.reference)
    (mode : r.mode = .synchronousFanOut)
    : k.settle r written
      = Round.attempt (k.repairLead (r.members written) (r.claims written)) := by
  unfold settle settleMembers
  dsimp only
  split
  next none =>
    have empty : r.members written = [] := none.resolve_left (by simp [mode])
    change pure (r.members written, []) = _
    rw [empty]
    rfl
  · rw [Multiple.checkReference_of_reference own]
    rfl

/-- Without a queue the members are settled by an election, which is nothing but writing. -/
theorem settle_synchronous (mode : r.mode = .synchronousFanOut) (keyed : s.cases.Keyed)
    (settles : (k.settle r written).Returns s (members, failures) t)
    : s.Wrote t ∧ r.Settled written s.cases.records t.cases.records members failures := by
  have repaired := repairLead_of_settle mode settles
  have wrote := repairLead_wrote (k := k) (r.members written) (r.claims written) s
  have elected :=
    k.electWriting_elected (r.claims written) (leadCandidates (r.members written)) keyed
  rw [repaired] at wrote
  rw [repairLead_eq] at repaired
  cases repaired
  exact ⟨wrote, _, elected, rfl⟩

/-- With writes still in the queue the members are taken as they are. -/
theorem settle_durable (mode : r.mode = .durableQueue)
    : k.settle r written = pure (r.members written, []) :=
  if_pos (.inl mode)

/-- However they are settled, the members are those that the writes have left. -/
theorem cases_of_settle (settles : (k.settle r written).Returns s (members, failures) t)
    : members.map Member.case = (r.members written).map Member.case := by
  cases mode : r.mode with
  | synchronousFanOut =>
      have repaired := repairLead_of_settle mode settles
      rw [repairLead_eq] at repaired
      cases repaired
      exact cases_withLead _ _
  | durableQueue =>
      rw [settle_durable mode] at settles
      cases (Round.returns_pure.mp settles).1
      rfl

/-- A commit that succeeds replaces the record that was stored at the expected version. -/
theorem commit_returns {record : Multiple} (own : r.multiple.reference = some r.reference)
    (hooks : s.multiples.hooks = []) (returns : (k.commit r members).Returns s record t)
    : r.Committed members record s.multiples t.multiples
      ∧ t.multiples.hooks = [] ∧ t.cases = s.cases := by
  obtain ⟨reference, committed⟩ :=
    Stores.commit_eq_ok hooks (Round.returns_multiples.mp returns)
  have same : reference = r.reference := Option.some.inj (committed.own.symm.trans own)
  subst same
  exact ⟨⟨committed.fresh, committed.record, committed.stored⟩, committed.hooks,
    committed.cases⟩

theorem commitFault_of_commit (hooks : s.multiples.hooks = []) {record : Multiple}
    (returns : (k.commit r members).Returns s record t)
    : t.multiples.commitFault = none := by
  obtain ⟨_, committed⟩ := Stores.commit_eq_ok hooks (Round.returns_multiples.mp returns)
  exact committed.free

/-- A commit succeeds without a fault, if the record is stored at the expected version. -/
theorem commit_of_fresh (members : List Member) (own : r.multiple.reference = some r.reference)
    (free : s.multiples.commitFault = none) (hooks : s.multiples.hooks = [])
    (fresh : s.multiples.version? r.reference = r.expected)
    : ∃ record t,
        (k.commit r members).Returns s record t
        ∧ r.Committed members record s.multiples t.multiples
        ∧ t.cases = s.cases := by
  have recordOwn : (r.record members).reference = some r.reference := own
  have answer := MultipleStore.compareAndSwap_of_fresh free recordOwn fresh
  rw [← MultipleStore.commit_eq_compareAndSwap hooks] at answer
  let t := (Stores.commit k.scope (r.record members) r.expected s).2
  have accepted : (Stores.commit k.scope (r.record members) r.expected s).1 = .ok _ :=
    congrArg Prod.fst answer
  refine ⟨_, t, Round.returns_multiples.mpr (Prod.ext accepted rfl), ⟨fresh, rfl, ?_⟩, rfl⟩
  exact congrArg (fun x => x.2.records) answer

/-- The commits of a move do not get in each other's way, since they are of different multiples. -/
theorem commits_return {targetMembers sourceMembers : List Member} {movedTo record : Multiple}
    {u v : Stores} (prepared : m.Prepared request u) (hooks : s.multiples.hooks = [])
    (target : (k.commit m.target targetMembers).Returns s movedTo v)
    (source : (k.commit m.source sourceMembers).Returns v record t)
    : m.Committed targetMembers sourceMembers movedTo record s.multiples t.multiples
      ∧ t.cases = s.cases := by
  obtain ⟨target, hooks, cases⟩ := commit_returns prepared.targetOwn hooks target
  obtain ⟨source, _, cases'⟩ := commit_returns prepared.own hooks source
  have sourceFresh := source.fresh
  rw [MultipleStore.version?, target.stored,
    Register.get?_insert_of_ne _ _ prepared.apart.symm] at sourceFresh
  refine ⟨⟨target.fresh, sourceFresh, target.record, source.record, ?_⟩, cases'.trans cases⟩
  rw [source.stored, target.stored]

theorem propagate_synchronous {reference : MultipleReference} {expected : Option UInt64}
    {plan : PropagationPlan} {done : Propagation}
    : (k.propagate reference expected plan .synchronousFanOut).Returns s done t
      ↔ k.fanOutPlan plan s = (done, t) :=
  Round.returns_attempt

-----------------------------------------------------------------------------------------
-- Work that returns
-----------------------------------------------------------------------------------------

/-- (Reconciled k r s outcome t) lists the steps of a reconciliation that returns. -/
inductive Reconciled (k : Coordinator) (r : Reconciliation) (s : Stores) (outcome : RoundOutcome)
    (t : Stores) : Prop where
  | steps {done u members settling v}
    (propagated
      : (k.propagate r.reference r.expected r.plan r.mode).Returns s done u)
    (settled : (k.settle r done.written).Returns u (members, settling) v)
    (committed : (k.commit r members).Returns v outcome.multiple t)
    (movedTo : outcome.movedTo = none)
    (failed : outcome.failures = r.failures ++ done.failures ++ settling)

/-- (Moved k m s outcome t) lists the steps of a move that returns. -/
inductive Moved (k : Coordinator) (m : Movement) (s : Stores) (outcome : RoundOutcome)
    (t : Stores) : Prop where
  | steps {toTarget u toSource v targetMembers targetSettling w sourceMembers sourceSettling x
      movedTo y}
    (target
      : (k.propagate m.target.reference m.target.expected m.target.plan m.target.mode).Returns s
          toTarget u)
    (source
      : (k.propagate m.source.reference m.source.expected { m.source.plan with detach := [] }
          m.source.mode).Returns u toSource v)
    (targetSettled
      : (k.settle m.target (toTarget.written ++ toSource.written)).Returns v
          (targetMembers, targetSettling) w)
    (sourceSettled
      : (k.settle m.source (toTarget.written ++ toSource.written)).Returns w
          (sourceMembers, sourceSettling) x)
    (targetCommitted : (k.commit m.target targetMembers).Returns x movedTo y)
    (sourceCommitted : (k.commit m.source sourceMembers).Returns y outcome.multiple t)
    (moved : outcome.movedTo = some movedTo)
    (failed
      : outcome.failures
        = m.strangers ++ toTarget.failures ++ toSource.failures ++ targetSettling
          ++ sourceSettling)

theorem reconcile_returns (returns : (k.reconcile r).Returns s outcome t)
    : Reconciled k r s outcome t := by
  obtain ⟨_, _, checked, rest⟩ := Round.returns_bind.mp returns
  obtain ⟨_, rfl⟩ := Round.returns_check.mp checked
  obtain ⟨done, u, propagated, rest⟩ := Round.returns_bind.mp rest
  obtain ⟨⟨members, settling⟩, v, settled, rest⟩ := Round.returns_bind.mp rest
  obtain ⟨committed, w, commits, ends⟩ := Round.returns_bind.mp rest
  obtain ⟨rfl, rfl⟩ := Round.returns_pure.mp ends
  exact .steps propagated settled commits rfl rfl

theorem move_returns (returns : (k.move m).Returns s outcome t) : Moved k m s outcome t := by
  obtain ⟨toTarget, u, target, rest⟩ := Round.returns_bind.mp returns
  obtain ⟨toSource, v, source, rest⟩ := Round.returns_bind.mp rest
  obtain ⟨⟨targetMembers, targetSettling⟩, w, settled, rest⟩ := Round.returns_bind.mp rest
  obtain ⟨⟨sourceMembers, sourceSettling⟩, x, settled', rest⟩ := Round.returns_bind.mp rest
  obtain ⟨movedTo, y, commits, rest⟩ := Round.returns_bind.mp rest
  obtain ⟨committed, z, commits', ends⟩ := Round.returns_bind.mp rest
  obtain ⟨rfl, rfl⟩ := Round.returns_pure.mp ends
  exact .steps target source settled settled' commits commits' rfl rfl

/-- A reconciliation under its reference passes the check that it begins with. -/
theorem checkReference_returns (own : r.multiple.reference = some r.reference)
    : (Round.check r.multiple.checkReference).Returns s () s :=
  Round.returns_check.mpr ⟨Multiple.checkReference_of_reference own, rfl⟩

/-- What is left of a reconciliation once its members are settled: to commit them. -/
theorem reconcile_of_settled {u v : Stores} {done : Propagation}
    (own : r.multiple.reference = some r.reference)
    (propagated : (k.propagate r.reference r.expected r.plan r.mode).Returns s done u)
    (settled : (k.settle r done.written).Returns u (members, failures) v)
    : (k.reconcile r).runOn s
      = (do
          let committed ← k.commit r members
          return {
            multiple := committed
            failures := r.failures ++ done.failures ++ failures
            mode := r.mode
            enqueuedJobs := done.acknowledgements.length } : Round RoundOutcome).runOn v := by
  refine (Round.runOn_bind_of_returns (checkReference_returns own)).trans ?_
  refine (Round.runOn_bind_of_returns propagated).trans ?_
  refine (Round.runOn_bind_of_returns settled).trans ?_
  rfl

/-- A round that returns has prepared its work and done it. -/
theorem carryOut_returns
    (returns : (k.carryOut request).Returns s outcome t)
    : ∃ work u, (k.prepare request).Returns s work u ∧ (k.perform work).Returns u outcome t := by
  rw [carryOut_eq] at returns
  exact Round.returns_bind.mp returns

end Coordinator

end CaseGrouping
