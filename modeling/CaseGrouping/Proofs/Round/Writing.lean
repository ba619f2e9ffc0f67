import CaseGrouping.Proofs.Durable.Completion
import CaseGrouping.Proofs.Records.WellFormed

/-! What the calls of a round write. While all writes go through, on either way, they are the writes
of its plans, and there is nothing left to settle.
-/

namespace CaseGrouping

-----------------------------------------------------------------------------------------
-- Calls that write
-----------------------------------------------------------------------------------------

/-- (call.Within W) says that W holds for every write that the call submits or enqueues. -/
def Call.Within (W : CaseWrite → Prop) : Call → Prop
  | .submit _ w => W w
  | .enqueue job => ∀ w ∈ job.writes, W w
  | .retrieve .. | .search .. | .load .. | .allocate .. | .commit .. => True

/-- Writes of one kind are also of any wider kind. -/
theorem Call.Within.mono {W V : CaseWrite → Prop} {call : Call} (within : call.Within W)
    (wider : ∀ w, W w → V w)
    : call.Within V := by
  cases call with
  | submit _ w => exact wider w within
  | enqueue _ => exact fun w carried => wider w (within w carried)
  | _ => trivial

/-- (s.SendsOnly W t) says that between the stores s and t only writes were submitted or enqueued
for which W holds.
-/
def Stores.SendsOnly (W : CaseWrite → Prop) (before after : Stores) : Prop :=
  ∃ calls, after.journal = before.journal ++ calls ∧ ∀ e ∈ calls, e.call.Within W

namespace Stores.SendsOnly

variable {W : CaseWrite → Prop} {s t u : Stores}

theorem note (sent : s.SendsOnly W t) (call : Call) (within : call.Within W)
    (noted : u.journal = (t.note call).journal)
    : s.SendsOnly W u := by
  obtain ⟨calls, journal, each⟩ := sent
  refine ⟨calls ++ [⟨t.clock, call⟩], ?_, fun e member => ?_⟩
  · rw [noted, Stores.note, journal, List.append_assoc]
  · rcases List.mem_append.mp member with earlier | last
    · exact each e earlier
    · rw [List.mem_singleton.mp last]
      exact within

theorem mono {V : CaseWrite → Prop} (sent : s.SendsOnly W t) (wider : ∀ w, W w → V w)
    : s.SendsOnly V t := by
  obtain ⟨calls, journal, each⟩ := sent
  exact ⟨calls, journal, fun e member => (each e member).mono wider⟩

/-- Questions write nothing. -/
theorem of_asked (asked : s.Asked t) : s.SendsOnly W t := by
  obtain ⟨calls, journal, questions⟩ := asked.questioned
  refine ⟨calls, journal, fun e member => ?_⟩
  have question := questions e member
  cases call : e.call <;> simp [Call.isQuestion, Call.Within, call] at question ⊢

end Stores.SendsOnly

namespace Coordinator

variable {k : Coordinator} {s t u : Stores} {W : CaseWrite → Prop}
  {reference : MultipleReference} {expected : Option UInt64} {mode : PropagationMode}
  {done : Propagation} {r : Reconciliation} {m : Movement} {request : RoundRequest}
  {outcome : RoundOutcome}

/-- Propagation sends the writes of a plan, either way. -/
theorem propagate_sends (plan : PropagationPlan) (each : ∀ w ∈ plan.writes, W w)
    (mode : PropagationMode)
    : (k.propagate reference expected plan mode).Keeps (s.SendsOnly W) := by
  refine propagate_keeps (fun w member t sent => ?_) (fun _ _ sent => sent)
    (fun now job member t sent => ?_) mode
  · exact sent.note (.submit k.fanOut.caseType w) (each w member) rfl
  · exact sent.note (.enqueue job) (fun w carried => each w (mem_writes_jobsOf member carried)) rfl

theorem commit_sends (r : Reconciliation) (members : List Member)
    : (k.commit r members).Keeps (s.SendsOnly W) := by
  intro t sent
  exact sent.note (.commit k.scope.multipleType _ r.expected) trivial rfl

-----------------------------------------------------------------------------------------
-- Rounds whose writes go through
-----------------------------------------------------------------------------------------

/-- A plan is completed by its propagation if it goes to the queue, or if its cases accept writes.
-/
theorem complete_of_propagate (plan : PropagationPlan)
    (distinct : (plan.writes.map CaseWrite.case).Nodup) (keyed : s.cases.Keyed)
    (accepts
      : mode = .synchronousFanOut → ∀ case ∈ plan.writes.map CaseWrite.case, s.cases.Accepts case)
    (propagated : (k.propagate reference expected plan mode).Returns s done t)
    : done.Complete plan := by
  cases mode with
  | synchronousFanOut =>
      obtain ⟨done', t', returns, complete, _⟩ :=
        k.propagate_of_accepts reference expected plan distinct keyed (accepts rfl)
      cases returns.symm.trans propagated
      exact complete
  | durableQueue =>
      obtain ⟨_, written, failures⟩ := enqueuePlan_returns propagated
      exact ⟨written, failures⟩

/-- A reconciliation whose writes go through commits the members that its plan leads to, and sends
nothing but the plan.
-/
theorem reconcile_sends (performs : (k.reconcile r).Returns u outcome t)
    (prepared : r.Prepared request s) (inMemory : u.InMemory)
    (accepts
      : request.mode = .synchronousFanOut
        → ∀ case ∈ r.plan.writes.map CaseWrite.case, u.cases.Accepts case)
    : outcome.multiple.members = r.members (r.plan.writes.map CaseWrite.case)
      ∧ ∀ {W : CaseWrite → Prop},
          (∀ w ∈ r.plan.writes, W w)
          → s.SendsOnly W u
          → s.SendsOnly W t := by
  have posed := prepared.posed
  obtain ⟨propagated, _, _, _, _⟩ := reconcile_returns performs
  have complete := complete_of_propagate r.plan posed.nodup_writes inMemory.keyed
    (fun sync => accepts (prepared.mode.symm.trans sync)) propagated
  have ends := reconcile_of_complete posed prepared.valid prepared.reference propagated complete
  obtain ⟨record, _, commits, result⟩ := Round.returns_bind.mp (ends.symm.trans performs)
  obtain ⟨rfl, rfl⟩ := Round.returns_pure.mp result
  have inMemory' := (propagate_returns inMemory propagated).1
  have committed := (commit_returns prepared.reference inMemory'.hooks commits).1
  constructor
  · dsimp only
    rw [committed.record]
    rfl
  · intro W each before
    have sent := (propagate_sends r.plan each _).of_returns before propagated
    exact (commit_sends r _).of_returns sent commits

/-- So does a move. -/
theorem move_sends (performs : (k.move m).Returns u outcome t) (prepared : m.Prepared request s)
    (apart : m.Apart) (inMemory : u.InMemory)
    (accepts
      : request.mode = .synchronousFanOut
        → ∀ case ∈ m.writes.map CaseWrite.case, u.cases.Accepts case)
    : outcome.multiple.members = m.source.members (m.writes.map CaseWrite.case)
      ∧ ∀ {W : CaseWrite → Prop},
          (∀ w ∈ m.target.plan.write, W w)
          → (∀ w ∈ m.source.plan.write, W w)
          → s.SendsOnly W u
          → s.SendsOnly W t := by
  rw [Movement.writes, List.map_append, ← prepared.writes_target] at accepts
  obtain ⟨target, source, _, _, _, _, _, _⟩ := move_returns performs
  have targetComplete := complete_of_propagate m.target.plan prepared.target.nodup_writes
    inMemory.keyed
    (fun sync case member =>
      accepts (prepared.targetMode.symm.trans sync) case (List.mem_append_left _ member))
    target
  have inMemory' := (propagate_returns inMemory target).1
  have sourceComplete := complete_of_propagate { m.source.plan with detach := [] }
    prepared.source.nodup_write inMemory'.keyed
    (fun sync case member => ?_) source
  · have ends := move_of_complete prepared apart target source targetComplete sourceComplete
    obtain ⟨movedTo, v, toTargetCommits, rest⟩ := Round.returns_bind.mp (ends.symm.trans performs)
    obtain ⟨record, _, toSourceCommits, result⟩ := Round.returns_bind.mp rest
    obtain ⟨rfl, rfl⟩ := Round.returns_pure.mp result
    have inMemory'' := (propagate_returns inMemory' source).1
    have committed := (commits_return prepared inMemory''.hooks toTargetCommits toSourceCommits).1
    constructor
    · dsimp only
      rw [committed.sourceRecord]
      rfl
    · intro W toTarget toSource before
      rw [← prepared.writes_target] at toTarget
      have sent := (propagate_sends m.target.plan toTarget _).of_returns before target
      have sent := (propagate_sends { m.source.plan with detach := [] } toSource _).of_returns sent
        source
      have sent := (commit_sends m.target _).of_returns sent toTargetCommits
      exact (commit_sends m.source _).of_returns sent toSourceCommits
  · have accepted := accepts (prepared.sourceMode.symm.trans sync) case
      (List.mem_append_right _ member)
    rw [prepared.targetMode.trans (prepared.sourceMode.symm.trans sync)] at target
    have wrote := k.fanOutPlan_wrote m.target.plan u
    rw [propagate_synchronous.mp target] at wrote
    exact wrote.accepts accepted

end Coordinator

end CaseGrouping
