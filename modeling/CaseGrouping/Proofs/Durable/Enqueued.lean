import CaseGrouping.Proofs.Durable.Refinement
import Mathlib.Data.List.Perm.Subperm

/-! The jobs that a round leaves in the queue. However the round ends, they address cases that its
writes are to, so no two of them address one case.
-/

namespace CaseGrouping

/-- (s.Took cases t) says that between the stores s and t the queue took jobs that address some of
the cases, each of them as often as it is listed at most.
-/
def Stores.Took (cases : List CaseReference) (s t : Stores) : Prop :=
  ∃ jobs, t.queue.jobs = s.queue.jobs ++ jobs ∧ (jobs.flatMap Job.cases).Subperm cases

section Took

variable {s t u : Stores} {cases other : List CaseReference}

theorem Stores.Took.of_eq (same : t.queue = s.queue) : s.Took cases t :=
  ⟨[], by simp [same], List.nil_subperm⟩

theorem Stores.Took.trans (first : s.Took cases t) (next : t.Took other u)
    : s.Took (cases ++ other) u := by
  obtain ⟨jobs, queue, within⟩ := first
  obtain ⟨more, queue', within'⟩ := next
  refine ⟨jobs ++ more, by rw [queue', queue, List.append_assoc], ?_⟩
  rw [List.flatMap_append]
  exact within.append within'

theorem Stores.Took.mono (took : s.Took cases t) (within : cases.Subperm other)
    : s.Took other t := by
  obtain ⟨jobs, queue, addressed⟩ := took
  exact ⟨jobs, queue, addressed.trans within⟩

/-- If the cases are different, no two of the new jobs share one. -/
theorem Stores.Took.nodup_newJobs (took : s.Took cases t) (distinct : cases.Nodup)
    : ((s.newJobs t).flatMap Job.cases).Nodup := by
  obtain ⟨jobs, queue, listed, perm, sublist⟩ := took
  rw [Stores.newJobs_of_append queue]
  exact perm.nodup_iff.mp (sublist.nodup distinct)

end Took

-----------------------------------------------------------------------------------------
-- Parts of rounds
-----------------------------------------------------------------------------------------

namespace Round

/-- (x.Adds cases) says that x has the queue take jobs for some of the cases at most, however it
ends.
-/
def Adds (cases : List CaseReference) (x : Round α) : Prop :=
  ∀ s : Stores, s.Took cases (x.runOn s).2

variable {cases other : List CaseReference}

theorem adds_pure (a : α) : (pure a : Round α).Adds cases :=
  fun _ => .of_eq rfl

theorem adds_throw (e : RoundError) : (throw e : Round α).Adds cases :=
  fun _ => .of_eq rfl

theorem adds_check (verdict : Except ValidationError α) : (check verdict).Adds cases :=
  fun _ => .of_eq rfl

theorem adds_attempt {call : StateM Stores α} (same : ∀ s, (call s).2.queue = s.queue)
    : (attempt call).Adds cases :=
  fun s => .of_eq (same s)

theorem adds_multiples {call : StateM Stores (Except MultipleStoreError α)}
    (same : ∀ s, (call s).2.queue = s.queue)
    : (multiples call).Adds cases :=
  fun s => .of_eq (same s)

theorem adds_bind {x : Round α} {f : α → Round β} (first : x.Adds cases)
    (next : ∀ a, (f a).Adds other)
    : (x >>= f).Adds (cases ++ other) := by
  intro s
  have took := first s
  rw [runOn_bind]
  split
  next a t ends =>
    rw [ends] at took
    exact took.trans (next a t)
  next e t ends =>
    rw [ends] at took
    exact took.mono (List.sublist_append_left _ _).subperm

theorem adds_ite {c : Prop} [Decidable c] {x y : Round α} (yes : x.Adds cases)
    (no : y.Adds cases)
    : (if c then x else y).Adds cases := by
  split
  · exact yes
  · exact no

/-- A first part that adds nothing leaves it to the rest. -/
theorem adds_bind_of_quiet {x : Round α} {f : α → Round β} (first : x.Adds [])
    (next : ∀ a, (f a).Adds cases)
    : (x >>= f).Adds cases :=
  adds_bind first next

end Round

namespace Coordinator

open Round

variable {k : Coordinator} {s t : Stores} {request : RoundRequest}

/-- A job is taken or refused. -/
theorem enqueue_took (job : Job) (s : Stores) : s.Took job.cases (Stores.enqueue job s).2 := by
  have answer : (Stores.enqueue job s).2.queue = (s.queue.enqueue job).2 := rfl
  unfold UpdateQueue.enqueue at answer
  split at answer
  · exact ⟨[], by simp [answer], List.nil_subperm⟩
  · exact ⟨[job], by simp [answer], by simpa using List.Subperm.refl job.cases⟩

/-- Of a list of jobs those before the first refused one are taken, by induction on the list. -/
theorem enqueueAll_adds (jobs : List Job) (done : Propagation)
    : (enqueueAll jobs done).Adds (jobs.flatMap Job.cases) := by
  induction jobs generalizing done with
  | nil => exact adds_pure _
  | cons job rest ih =>
      rw [List.flatMap_cons]
      refine adds_bind (enqueue_took job) fun answer => ?_
      cases answer with
      | error e => exact adds_throw _
      | ok ack => exact ih _

theorem propagate_adds (reference : MultipleReference) (expected : Option UInt64)
    (plan : PropagationPlan) (mode : PropagationMode)
    : (k.propagate reference expected plan mode).Adds (plan.writes.map CaseWrite.case) := by
  cases mode with
  | synchronousFanOut => exact adds_attempt fun s => (k.fanOutPlan_wrote plan s).queue
  | durableQueue =>
      refine adds_bind_of_quiet (adds_attempt fun _ => rfl) fun now s => ?_
      exact (enqueueAll_adds (k.jobsOf reference expected plan now) {} s).mono
        (k.cases_jobsOf reference expected plan now).subperm

theorem settle_adds (r : Reconciliation) (written : List CaseReference)
    : (k.settle r written).Adds [] := by
  refine adds_ite (adds_pure _) ?_
  exact adds_bind_of_quiet (adds_check _) fun _ =>
    adds_attempt fun s => (repairLead_wrote _ _ s).queue

theorem commit_adds (r : Reconciliation) (members : List Member) : (k.commit r members).Adds [] :=
  adds_multiples fun _ => rfl

theorem reconcile_adds (r : Reconciliation)
    : (k.reconcile r).Adds (r.plan.writes.map CaseWrite.case) := by
  refine adds_bind_of_quiet (adds_check _) fun _ => ?_
  rw [← List.append_nil (List.map _ _)]
  refine adds_bind (propagate_adds _ _ _ _) fun done => ?_
  refine adds_bind_of_quiet (settle_adds r done.written) fun settled => ?_
  exact adds_bind_of_quiet (commit_adds r settled.1) fun _ => adds_pure _

theorem move_adds {m : Movement} (prepared : m.Prepared request s)
    : (k.move m).Adds (m.writes.map CaseWrite.case) := by
  have toTarget : m.target.plan.writes = m.target.plan.write := prepared.writes_target
  rw [Movement.writes, List.map_append, ← toTarget]
  refine adds_bind (propagate_adds _ _ _ _) fun targetDone => ?_
  rw [← List.append_nil (List.map _ _)]
  refine adds_bind (propagate_adds _ _ _ _) fun sourceDone => ?_
  refine adds_bind_of_quiet (settle_adds m.target _) fun target => ?_
  refine adds_bind_of_quiet (settle_adds m.source _) fun source => ?_
  refine adds_bind_of_quiet (commit_adds m.target target.1) fun _ => ?_
  exact adds_bind_of_quiet (commit_adds m.source source.1) fun _ => adds_pure _

/-- No two jobs of a round address one case, however the round ends. A move is between multiples
that share no case.
-/
theorem carryOut_newJobs (k : Coordinator) (filed : s.multiples.Filed) (apart : request.Apart s)
    : ((s.newJobs ((k.carryOut request).runOn s).2).flatMap Job.cases).Nodup := by
  rcases k.carryOut_cases request s with
    ⟨e, u, questions, ends⟩ | ⟨work, u, questions, prepares, ends⟩
  · have asked : s.Took [] u := .of_eq questions.queue
    rw [ends]
    exact asked.nodup_newJobs .nil
  · have asked : s.Took [] u := .of_eq questions.queue
    rw [ends]
    cases work with
    | reconcile r =>
        exact (asked.trans (reconcile_adds r u)).nodup_newJobs prepares.posed.nodup_writes
    | move m =>
        have prepared := prepares.movement filed
        have apart : (Work.move m).Apart := apart.work prepared
        exact (asked.trans (move_adds prepared u)).nodup_newJobs (prepared.nodup_writes apart)

end Coordinator

end CaseGrouping
