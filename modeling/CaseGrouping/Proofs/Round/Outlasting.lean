import CaseGrouping.Proofs.Round.LeadRepair
import CaseGrouping.Proofs.Round.Questions
import CaseGrouping.Proofs.Round.Queueing

/-! What outlasts the writes of a round. A property that single writes of some kind leave true stays
true while the round sends writes of that kind only, whatever becomes of them on their way.
-/

namespace CaseGrouping

-----------------------------------------------------------------------------------------
-- The parts of a round that write
-----------------------------------------------------------------------------------------

section Parts

variable {P : Stores → Prop} {s : Stores}

/-- What the submission of every write and the passing of time keep is kept by a run of the pool: a
start submits the write of its task, the other moves pass time, and the tasks carry the same writes
throughout.
-/
theorem FanOut.execute_keeps (f : FanOut) {writes : List CaseWrite}
    (submit : ∀ w ∈ writes, ∀ t, P t → P (Stores.submit f.caseType w t).2)
    (passTime : ∀ time t, P t → P { t with clock := max t.clock time }) (holds : P s)
    : P (f.execute writes s).2 := by
  refine (Pool.run_induction
    (P := fun p => (∀ w ∈ p.tasks.map Task.write, w ∈ writes) ∧ P p.stores) ?_ _ ⟨?_, holds⟩).2
  · rintro p q i t found move ⟨sent, holds⟩
    refine ⟨by rwa [move.writes found], ?_⟩
    cases move with
    | start _ _ =>
        exact submit _ (sent _ (List.mem_map_of_mem (List.mem_of_getElem? found))) _ holds
    | settle _ => exact passTime _ _ holds
    | wake _ => exact passTime _ _ holds
  · rw [Pool.ofWrites_writes]
    exact fun _ => id

namespace Coordinator

/-- What every job keeps is kept when they are enqueued one by one, by induction on them. -/
theorem enqueueAll_keeps {jobs : List Job}
    (enqueue : ∀ job ∈ jobs, ∀ t, P t → P (Stores.enqueue job t).2) (done : Propagation)
    : (enqueueAll jobs done).Keeps P := by
  induction jobs generalizing done with
  | nil => exact Round.keeps_pure _
  | cons job rest ih =>
      refine Round.keeps_bind (Round.keeps_attempt (enqueue job (by simp))) fun answer => ?_
      split
      · exact Round.keeps_throw _
      · exact ih (fun later member => enqueue later (by simp [member])) _

/-- On either way, propagation keeps what the writes of the plan and the jobs for them keep. -/
theorem propagate_keeps {k : Coordinator} {reference : MultipleReference}
    {expected : Option UInt64} {plan : PropagationPlan}
    (submit
      : ∀ w ∈ plan.writes, ∀ t, P t → P (Stores.submit k.fanOut.caseType w t).2)
    (passTime : ∀ time t, P t → P { t with clock := max t.clock time })
    (enqueue
      : ∀ now, ∀ job ∈ k.jobsOf reference expected plan now, ∀ t,
          P t → P (Stores.enqueue job t).2)
    (mode : PropagationMode)
    : (k.propagate reference expected plan mode).Keeps P := by
  cases mode with
  | synchronousFanOut =>
      refine Round.keeps_attempt fun s holds => ?_
      refine k.fanOut.execute_keeps (fun w member => submit w (List.mem_append_right _ member))
        passTime ?_
      exact k.fanOut.execute_keeps (fun w member => submit w (List.mem_append_left _ member))
        passTime holds
  | durableQueue =>
      exact Round.keeps_bind (Round.keeps_attempt fun s holds => holds) fun now =>
        enqueueAll_keeps (enqueue now) _

/-- What asking any of the candidates keeps is kept by their election, by induction on them. -/
theorem electWriting_keeps {k : Coordinator} {claims : CaseReference → Bool}
    {candidates : List CaseReference} (ask : ∀ r ∈ candidates, ∀ t, P t → P (k.ask r t).2)
    (holds : P s)
    : P (k.electWriting claims candidates s).2 := by
  induction candidates generalizing s with
  | nil => exact holds
  | cons r rest ih =>
      have asked : P (k.ask r s).2 := ask r (by simp) s holds
      rw [electWriting_cons]
      split
      · exact holds
      · split
        · exact asked
        · exact ih (fun q later => ask q (by simp [later])) asked

/-- Settling asks members at most. -/
theorem settle_keeps {k : Coordinator} {r : Reconciliation}
    (ask
      : ∀ case, case ∈ r.delta.proposed ∨ case ∈ r.delta.toDetach → ∀ t, P t → P (k.ask case t).2)
    (written : List CaseReference)
    : (k.settle r written).Keeps P := by
  refine Round.keeps_ite (Round.keeps_pure _) ?_
  refine Round.keeps_bind (Round.keeps_check _) fun _ => Round.keeps_attempt fun s holds => ?_
  rw [repairLead_eq]
  refine electWriting_keeps (fun case candidate => ?_) holds
  exact ask case
    (Reconciliation.proposed_or_leaves_of_mem_members (mem_leadCandidates.mp candidate))

end Coordinator

end Parts

-----------------------------------------------------------------------------------------
-- The writes that work may send
-----------------------------------------------------------------------------------------

/-- (Outlasts W P) says that P outlasts every write for which W holds, the passing of time and the
enqueueing of jobs.
-/
structure Outlasts (W : CaseWrite → Prop) (P : Stores → Prop) : Prop where
  submit
    : ∀ (caseType : String) {w : CaseWrite} {s : Stores},
        W w → P s → P (Stores.submit caseType w s).2
  passTime : ∀ (time : Nat) {s : Stores}, P s → P { s with clock := max s.clock time }
  enqueue : ∀ (job : Job) {s : Stores}, P s → P (Stores.enqueue job s).2

/-- (r.Flags W) says that W holds for the flag that an election may write to any case that can be a
member in the end.
-/
def Reconciliation.Flags (W : CaseWrite → Prop) (r : Reconciliation) : Prop :=
  ∀ case, case ∈ r.delta.proposed ∨ case ∈ r.delta.toDetach → W ⟨case, .setLead true⟩

/-- (work.Sends W) says that W holds for all writes that the work may send. -/
def Work.Sends (W : CaseWrite → Prop) : Work → Prop
  | .reconcile r => (∀ w ∈ r.plan.writes, W w) ∧ r.Flags W
  | .move m =>
      (∀ w ∈ m.target.plan.writes, W w) ∧ (∀ w ∈ m.source.plan.write, W w)
      ∧ m.target.Flags W ∧ m.source.Flags W

/-- Writes of one kind are also of any wider kind. -/
theorem Work.Sends.mono {W V : CaseWrite → Prop} {work : Work} (sends : work.Sends W)
    (wider : ∀ w, W w → V w)
    : work.Sends V := by
  cases work with
  | reconcile r =>
      obtain ⟨sends, flags⟩ := sends
      exact ⟨fun w member => wider w (sends w member), fun case known => wider _ (flags case known)⟩
  | move m =>
      obtain ⟨toTarget, toSource, targetFlags, sourceFlags⟩ := sends
      exact ⟨fun w member => wider w (toTarget w member),
        fun w member => wider w (toSource w member),
        fun case known => wider _ (targetFlags case known),
        fun case known => wider _ (sourceFlags case known)⟩

/-- (work.Commits k P) says that P outlasts the commits of the work. -/
def Work.Commits (k : Coordinator) (P : Stores → Prop) : Work → Prop
  | .reconcile r => ∀ members, (k.commit r members).Keeps P
  | .move m =>
      (∀ members, (k.commit m.target members).Keeps P)
      ∧ ∀ members, (k.commit m.source members).Keeps P

namespace Outlasts

open Round

variable {W : CaseWrite → Prop} {P : Stores → Prop} {k : Coordinator} {s : Stores}
  (outlasts : Outlasts W P)

include outlasts

theorem execute (f : FanOut) {writes : List CaseWrite} (sends : ∀ w ∈ writes, W w) (holds : P s)
    : P (f.execute writes s).2 :=
  f.execute_keeps (fun w member _ => outlasts.submit f.caseType (sends w member))
    (fun time _ => outlasts.passTime time) holds

theorem fanOutPlan {plan : PropagationPlan} (sends : ∀ w ∈ plan.writes, W w) (holds : P s)
    : P (k.fanOutPlan plan s).2 := by
  have left : ∀ w ∈ plan.detach, W w := fun w member => sends w (List.mem_append_left _ member)
  have other : ∀ w ∈ plan.write, W w := fun w member => sends w (List.mem_append_right _ member)
  exact outlasts.execute k.fanOut other (outlasts.execute k.fanOut left holds)

theorem ask {r : CaseReference} (sends : W ⟨r, .setLead true⟩) (holds : P s)
    : P (k.ask r s).2 := by
  refine outlasts.fanOutPlan (fun w member => ?_) holds
  rw [List.mem_singleton.mp member]
  exact sends

theorem propagate (reference : MultipleReference) (expected : Option UInt64)
    {plan : PropagationPlan} (sends : ∀ w ∈ plan.writes, W w) (mode : PropagationMode)
    : (k.propagate reference expected plan mode).Keeps P :=
  Coordinator.propagate_keeps (fun w member _ => outlasts.submit _ (sends w member))
    (fun time _ => outlasts.passTime time) (fun _ job _ _ => outlasts.enqueue job) mode

/-- Settling writes flags to members at most. -/
theorem settle {r : Reconciliation} (flags : r.Flags W) (written : List CaseReference)
    : (k.settle r written).Keeps P :=
  Coordinator.settle_keeps (fun case known _ => outlasts.ask (flags case known)) written

-----------------------------------------------------------------------------------------
-- Whole rounds
-----------------------------------------------------------------------------------------

theorem perform {work : Work} (sends : work.Sends W) (commits : work.Commits k P)
    : (k.perform work).Keeps P := by
  cases work with
  | reconcile r =>
      obtain ⟨sends, flags⟩ := sends
      refine keeps_bind (keeps_check _) fun _ => ?_
      refine keeps_bind (outlasts.propagate _ _ sends _) fun done => ?_
      refine keeps_bind (outlasts.settle flags done.written) fun settled => ?_
      exact keeps_bind (commits settled.1) fun _ => keeps_pure _
  | move m =>
      obtain ⟨toTarget, toSource, targetFlags, sourceFlags⟩ := sends
      obtain ⟨commitsTarget, commitsSource⟩ := commits
      have toSource : ∀ w ∈ PropagationPlan.writes { m.source.plan with detach := [] }, W w :=
        toSource
      refine keeps_bind (outlasts.propagate _ _ toTarget _) fun targetDone => ?_
      refine keeps_bind (outlasts.propagate _ _ toSource _) fun sourceDone => ?_
      refine keeps_bind (outlasts.settle targetFlags _) fun target => ?_
      refine keeps_bind (outlasts.settle sourceFlags _) fun source => ?_
      refine keeps_bind (commitsTarget target.1) fun _ => ?_
      exact keeps_bind (commitsSource source.1) fun _ => keeps_pure _

/-- What outlasts the questions, the writes and the commits of a round holds after it, however the
round ends.
-/
theorem carryOut_of_commits {request : RoundRequest} (asked : ∀ t, s.Asked t → P t)
    (sends : ∀ work, k.Prepares s request work → work.Sends W)
    (commits : ∀ work, k.Prepares s request work → work.Commits k P)
    : P ((k.carryOut request).runOn s).2 := by
  rcases k.carryOut_cases request s with
    ⟨e, t, questions, ends⟩ | ⟨work, t, questions, prepares, ends⟩
  · rw [ends]
    exact asked t questions
  · rw [ends]
    exact outlasts.perform (sends work prepares) (commits work prepares) (asked t questions)

/-- So it is with what outlasts commits of any kind. -/
theorem carryOut {request : RoundRequest}
    (commit
      : ∀ (scope : CaseScope) (m : Multiple) (expected : Option UInt64) {s : Stores},
          P s → P (Stores.commit scope m expected s).2)
    (asked : ∀ t, s.Asked t → P t)
    (sends : ∀ work, k.Prepares s request work → work.Sends W)
    : P ((k.carryOut request).runOn s).2 := by
  have commits : ∀ (r : Reconciliation) (members : List Member), (k.commit r members).Keeps P :=
    fun r members => keeps_multiples fun _ holds => commit _ _ _ holds
  refine outlasts.carryOut_of_commits asked sends fun work _ => ?_
  cases work with
  | reconcile r => exact commits r
  | move m => exact ⟨commits m.target, commits m.source⟩

end Outlasts

end CaseGrouping
