import CaseGrouping.Proofs.Round.Outlasting
import CaseGrouping.Proofs.Round.Queueing

/-! The order of the calls of a round. The calls of each of its parts are of one stage: questions
come first, then the writes by which cases leave, then all other writes, and the commits are last.
-/

namespace CaseGrouping

-----------------------------------------------------------------------------------------
-- Stages
-----------------------------------------------------------------------------------------

/-- The change has a case leave a multiple. -/
def ChangeSet.leaves (c : ChangeSet) : Bool :=
  match c.membership with
  | .detach _ => true
  | .keep | .attach _ => false

/-- The stage at which a change is written: changes by which cases leave come first. -/
def ChangeSet.stage (c : ChangeSet) : Nat :=
  if c.leaves then 1 else 2

/-- The stage of a round that a call belongs to; a job belongs to that of its change. -/
def Call.stage : Call → Nat
  | .submit _ w => w.change.stage
  | .enqueue job => job.change.stage
  | .commit .. => 3
  | .retrieve .. | .search .. | .load .. | .allocate .. => 0

theorem ChangeSet.stage_le (c : ChangeSet) : c.stage ≤ 2 := by
  unfold stage
  split <;> omega

theorem ChangeSet.stage_eq_of_stays {c : ChangeSet}
    (stays : ∀ multiple, c.membership ≠ .detach multiple)
    : c.stage = 2 := by
  unfold stage leaves
  split
  next multiple change => exact absurd change (stays multiple)
  all_goals rfl

/-- (s.Staged n t) says that between the stores s and t calls were made in the order of their stages
and of none later than n.
-/
def Stores.Staged (before : Stores) (n : Nat) (after : Stores) : Prop :=
  ∃ calls,
    after.journal = before.journal ++ calls
    ∧ calls.Pairwise (fun earlier later => earlier.call.stage ≤ later.call.stage)
    ∧ ∀ e ∈ calls, e.call.stage ≤ n

namespace Stores.Staged

variable {s t u : Stores} {n m : Nat}

theorem mono (le : n ≤ m) (staged : s.Staged n t) : s.Staged m t := by
  obtain ⟨calls, journal, ordered, bounded⟩ := staged
  exact ⟨calls, journal, ordered, fun e member => Nat.le_trans (bounded e member) le⟩

/-- A call that is noted may be of the same stage as those before it or of a later one. -/
theorem note (call : Call) (staged : s.Staged n t) (le : n ≤ call.stage)
    (noted : u.journal = (t.note call).journal)
    : s.Staged call.stage u := by
  obtain ⟨calls, journal, ordered, bounded⟩ := staged
  have earlier : ∀ e ∈ calls, e.call.stage ≤ call.stage := fun e member =>
    Nat.le_trans (bounded e member) le
  refine ⟨calls ++ [⟨t.clock, call⟩], ?_, ?_, ?_⟩
  · rw [noted, Stores.note, journal, List.append_assoc]
  · refine List.pairwise_append.mpr ⟨ordered, List.pairwise_singleton _ _, ?_⟩
    intro e member f last
    rw [List.mem_singleton.mp last]
    exact earlier e member
  · intro e member
    rcases List.mem_append.mp member with member | last
    · exact earlier e member
    · exact Nat.le_of_eq (by rw [List.mem_singleton.mp last])

/-- Questions are of the first stage. -/
theorem of_asked (asked : s.Asked t) : s.Staged 0 t := by
  obtain ⟨calls, journal, questions⟩ := asked.questioned
  have first : ∀ e ∈ calls, e.call.stage = 0 := by
    intro e member
    have question := questions e member
    cases call : e.call <;> simp [Call.isQuestion, Call.stage, call] at question ⊢
  refine ⟨calls, journal, List.Pairwise.imp_of_mem (R := fun _ _ => True) ?_ ?_, ?_⟩
  · intro e f early _ _
    rw [first e early]
    exact Nat.zero_le _
  · exact List.pairwise_of_forall fun _ _ => trivial
  · intro e member
    exact Nat.le_of_eq (first e member)

end Stores.Staged

-----------------------------------------------------------------------------------------
-- Parts of a round, one after the other
-----------------------------------------------------------------------------------------

namespace Round

/-- (x.Brings P Q) says that Q holds after every run of x on stores for which P held before. -/
def Brings (P Q : Stores → Prop) (x : Round α) : Prop :=
  ∀ ⦃s⦄, P s → Q (x.runOn s).2

variable {P Q R : Stores → Prop}

/-- A round goes on from what its first part brings about, or ends with it. -/
theorem brings_bind {x : Round α} {f : α → Round β} (first : x.Brings P Q)
    (ends : ∀ s, Q s → R s) (next : ∀ a, (f a).Brings Q R)
    : (x >>= f).Brings P R := by
  intro s holds
  have brought := first holds
  rw [runOn_bind]
  split
  next a t given =>
    rw [given] at brought
    exact next a brought
  next e t failed =>
    rw [failed] at brought
    exact ends t brought

end Round

-----------------------------------------------------------------------------------------
-- Plans
-----------------------------------------------------------------------------------------

/-- (plan.Starts n) says that the first writes of the plan are of the stage n, and all others of the
stage of writes by which no case leaves.
-/
structure PropagationPlan.Starts (plan : PropagationPlan) (n : Nat) : Prop where
  first : ∀ w ∈ plan.detach, w.change.stage = n
  other : ∀ w ∈ plan.write, w.change.stage = 2

/-- Besides the cases that leave, a plan has cases join and stay. -/
theorem Reconciliation.stage_write_plan {r : Reconciliation} {w : CaseWrite}
    (member : w ∈ r.plan.write)
    : w.change.stage = 2 := by
  refine ChangeSet.stage_eq_of_stays fun multiple => ?_
  rcases mem_write_plan.mp member with ⟨_, change⟩ | ⟨_, change, _⟩
  · simp [change, ChangeSet.attach]
  · simp [change]

theorem Reconciliation.plan_starts (r : Reconciliation) : r.plan.Starts 1 where
  first := by
    intro w member
    rw [(mem_detach_plan.mp member).2]
    rfl
  other := fun _ => stage_write_plan

/-- When nobody is told to leave, a plan starts with its other writes. -/
theorem Reconciliation.plan_starts_late (r : Reconciliation)
    : PropagationPlan.Starts { r.plan with detach := [] } 2 where
  first := fun _ none => nomatch none
  other := fun _ => stage_write_plan

/-- The jobs for writes of one stage are of this stage. -/
theorem stage_buildJobs {multiple : MultipleReference} {baseVersion : Option UInt64}
    {writes : List CaseWrite} {batchSize : Nat} {createdAt : Timestamp} {n : Nat}
    (staged : ∀ w ∈ writes, w.change.stage = n)
    : ∀ job ∈ buildJobs multiple baseVersion writes batchSize createdAt,
        job.change.stage = n := by
  intro job member
  obtain ⟨w, listed, change⟩ := change_buildJobs _ _ _ member
  exact change ▸ staged w listed

-----------------------------------------------------------------------------------------
-- The parts of a round
-----------------------------------------------------------------------------------------

/-- While writes of one stage are on their way through the pool, all submissions are of this stage,
retries included.
-/
theorem FanOut.execute_staged (f : FanOut) {writes : List CaseWrite} {n : Nat} {s t : Stores}
    (stage : ∀ w ∈ writes, w.change.stage = n) (staged : s.Staged n t)
    : s.Staged n (f.execute writes t).2 := by
  refine f.execute_keeps (P := s.Staged n) (fun w member u staged => ?_) (fun _ _ h => h) staged
  have noted := staged.note (.submit f.caseType w) (Nat.le_of_eq (stage w member).symm) rfl
  exact stage w member ▸ noted

namespace Coordinator

open Round

variable (k : Coordinator) {s t : Stores} {n : Nat} {plan : PropagationPlan}

/-- The pool is through with the first writes of a plan before it starts with the others. -/
theorem fanOutPlan_staged (starts : plan.Starts n) (early : n ≤ 2) (staged : s.Staged n t)
    : s.Staged 2 (k.fanOutPlan plan t).2 :=
  k.fanOut.execute_staged starts.other
    ((k.fanOut.execute_staged starts.first staged).mono early)

/-- Jobs are enqueued in the order in which they are given, by induction on them. -/
theorem enqueueAll_staged {jobs : List Job} (done : Propagation)
    (ordered : jobs.Pairwise fun earlier later => earlier.change.stage ≤ later.change.stage)
    (late : ∀ job ∈ jobs, n ≤ job.change.stage) (early : n ≤ 2)
    : (enqueueAll jobs done).Brings (s.Staged n) (s.Staged 2) := by
  induction jobs generalizing n done with
  | nil => exact fun _ staged => staged.mono early
  | cons job rest ih =>
      obtain ⟨before, ordered⟩ := List.pairwise_cons.mp ordered
      have bounded : job.change.stage ≤ 2 := job.change.stage_le
      refine brings_bind (Q := s.Staged job.change.stage) (fun t staged => ?_)
        (fun _ staged => staged.mono bounded) fun answer => ?_
      · exact staged.note (.enqueue job) (late job (by simp)) rfl
      · split
        · exact fun _ staged => staged.mono bounded
        · exact ih _ ordered before bounded

/-- The jobs of the first writes of a plan come before those of the others. -/
theorem enqueuePlan_staged (multiple : MultipleReference) (baseVersion : Option UInt64)
    (starts : plan.Starts n) (early : n ≤ 2)
    : (k.enqueuePlan multiple baseVersion plan).Brings (s.Staged n) (s.Staged 2) := by
  refine brings_bind (Q := s.Staged n) (fun _ staged => staged)
    (fun _ staged => staged.mono early) fun now => ?_
  have first : ∀ job ∈ buildJobs multiple baseVersion plan.detach k.batchSize now,
      job.change.stage = n :=
    stage_buildJobs starts.first
  have other : ∀ job ∈ buildJobs multiple baseVersion plan.write k.batchSize now,
      job.change.stage = 2 :=
    stage_buildJobs starts.other
  refine enqueueAll_staged _ (List.pairwise_append.mpr ⟨?_, ?_, ?_⟩) ?_ early
  · refine List.pairwise_of_forall_mem_list fun a left b right => ?_
    exact Nat.le_of_eq ((first a left).trans (first b right).symm)
  · refine List.pairwise_of_forall_mem_list fun a left b right => ?_
    exact Nat.le_of_eq ((other a left).trans (other b right).symm)
  · intro a left b right
    rw [first a left, other b right]
    exact early
  · intro job member
    rcases List.mem_append.mp member with left | right
    · exact Nat.le_of_eq (first job left).symm
    · rw [other job right]
      exact early

theorem propagate_staged (multiple : MultipleReference) (baseVersion : Option UInt64)
    (starts : plan.Starts n) (early : n ≤ 2) (mode : PropagationMode)
    : (k.propagate multiple baseVersion plan mode).Brings (s.Staged n) (s.Staged 2) := by
  cases mode with
  | synchronousFanOut => exact fun _ staged => k.fanOutPlan_staged starts early staged
  | durableQueue => exact k.enqueuePlan_staged multiple baseVersion starts early

/-- The lead flags that a repair writes have nobody leave. -/
theorem settle_staged (r : Reconciliation) (written : List CaseReference)
    : (k.settle r written).Brings (s.Staged 2) (s.Staged 2) := by
  refine settle_keeps (fun case _ t staged => ?_) written
  refine k.fanOutPlan_staged (n := 2) ⟨fun _ none => (nomatch none), fun w member => ?_⟩
    (Nat.le_refl _) staged
  rw [List.mem_singleton.mp member]
  rfl

theorem commit_staged (r : Reconciliation) (members : List Member) (early : n ≤ 3)
    : (k.commit r members).Brings (s.Staged n) (s.Staged 3) := by
  intro t staged
  exact staged.note (.commit k.scope.multipleType _ r.expected) early rfl

/-- The work of a round begins with the writes by which cases leave and ends with its commits. -/
theorem perform_staged (work : Work) : (k.perform work).Brings (s.Staged 1) (s.Staged 3) := by
  have writing : ∀ t, s.Staged 2 t → s.Staged 3 t := fun _ staged => staged.mono (by omega)
  cases work with
  | reconcile r =>
      refine brings_bind (Q := s.Staged 1) (keeps_check _)
        (fun _ staged => staged.mono (by omega)) fun _ => ?_
      refine brings_bind (k.propagate_staged _ _ r.plan_starts (by omega) r.mode) writing
        fun done => ?_
      refine brings_bind (k.settle_staged r done.written) writing fun settled => ?_
      exact brings_bind (k.commit_staged r settled.1 (by omega)) (fun _ => id)
        fun _ => keeps_pure _
  | move m =>
      refine brings_bind (k.propagate_staged _ _ m.target.plan_starts (by omega) m.target.mode)
        writing fun toTarget => ?_
      refine brings_bind
        (k.propagate_staged _ _ m.source.plan_starts_late (Nat.le_refl _) m.source.mode) writing
        fun toSource => ?_
      refine brings_bind (k.settle_staged m.target _) writing fun target => ?_
      refine brings_bind (k.settle_staged m.source _) writing fun source => ?_
      refine brings_bind (k.commit_staged m.target target.1 (by omega)) (fun _ => id)
        fun _ => ?_
      exact brings_bind (k.commit_staged m.source source.1 (Nat.le_refl _)) (fun _ => id)
        fun _ => keeps_pure _

/-- A round makes its calls in the order of their stages, however it ends. -/
theorem carryOut_staged (request : RoundRequest) (s : Stores)
    : s.Staged 3 ((k.carryOut request).runOn s).2 := by
  rcases k.carryOut_cases request s with ⟨e, t, asked, ends⟩ | ⟨work, t, asked, _, ends⟩
  · rw [ends]
    exact (Stores.Staged.of_asked asked).mono (by omega)
  · rw [ends]
    exact k.perform_staged work ((Stores.Staged.of_asked asked).mono (by omega))

end Coordinator

-----------------------------------------------------------------------------------------
-- The order of writes and commits
-----------------------------------------------------------------------------------------

/-- (Precede p q calls) says that of the calls, all for which p holds come before all for which q
holds.
-/
def Precede (p q : Call → Prop) (calls : List JournalEntry) : Prop :=
  calls.Pairwise fun earlier later => ¬ (q earlier.call ∧ p later.call)

/-- Calls in the order of their stages are in every order that the stages tell. -/
theorem precede_of_stages {p q : Call → Prop} {calls : List JournalEntry}
    (ordered : calls.Pairwise fun earlier later => earlier.call.stage ≤ later.call.stage)
    (apart : ∀ a b, p a → q b → a.stage < b.stage)
    : Precede p q calls := by
  refine ordered.imp fun {earlier later} le => ?_
  rintro ⟨early, late⟩
  exact absurd (apart _ _ late early) (by omega)

namespace Call

/-- The call submits a change, by which the case leaves or does not. -/
def Submits (leaving : Bool) : Call → Prop
  | .submit _ w => w.change.leaves = leaving
  | _ => False

/-- The call enqueues a job, by which cases leave or do not. -/
def Enqueues (leaving : Bool) : Call → Prop
  | .enqueue job => job.change.leaves = leaving
  | _ => False

/-- The call submits any change or enqueues any job. -/
def Writes (call : Call) : Prop :=
  ∃ leaving, call.Submits leaving ∨ call.Enqueues leaving

/-- The call commits a record. -/
def Commits : Call → Prop
  | .commit .. => True
  | _ => False

variable {call : Call} {leaving : Bool}

theorem Submits.stage (submits : call.Submits leaving)
    : call.stage = if leaving then 1 else 2 := by
  cases call <;> simp_all [Submits, Call.stage, ChangeSet.stage]

theorem Enqueues.stage (enqueues : call.Enqueues leaving)
    : call.stage = if leaving then 1 else 2 := by
  cases call <;> simp_all [Enqueues, Call.stage, ChangeSet.stage]

theorem Writes.stage_le (writes : call.Writes) : call.stage ≤ 2 := by
  obtain ⟨leaving, submits | enqueues⟩ := writes
  · rw [submits.stage]
    split <;> omega
  · rw [enqueues.stage]
    split <;> omega

theorem Commits.stage (commits : call.Commits) : call.stage = 3 := by
  cases call <;> simp_all [Commits, Call.stage]

end Call

/-- In the calls of every round, however it ends, all submissions of changes by which cases leave
come before those of other changes, all jobs by which cases leave are enqueued before other jobs,
and all submissions and jobs come before the first commit.
-/
theorem Coordinator.carryOut_calls_in_order (k : Coordinator) (request : RoundRequest)
    (s : Stores)
    : ∃ calls,
        ((k.carryOut request).runOn s).2.journal = s.journal ++ calls
        ∧ Precede (Call.Submits true) (Call.Submits false) calls
        ∧ Precede (Call.Enqueues true) (Call.Enqueues false) calls
        ∧ Precede Call.Writes Call.Commits calls := by
  obtain ⟨calls, journal, ordered, _⟩ := k.carryOut_staged request s
  refine ⟨calls, journal, ?_, ?_, ?_⟩
  · refine precede_of_stages ordered fun a b leaves stays => ?_
    rw [leaves.stage, stays.stage]
    decide
  · refine precede_of_stages ordered fun a b leaves stays => ?_
    rw [leaves.stage, stays.stage]
    decide
  · refine precede_of_stages ordered fun a b writes commits => ?_
    rw [commits.stage]
    exact Nat.lt_succ_of_le writes.stage_le

end CaseGrouping
