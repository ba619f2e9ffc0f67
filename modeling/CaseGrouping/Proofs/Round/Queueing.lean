import CaseGrouping.Proofs.FirstOccurrences
import CaseGrouping.Proofs.Json.ChangeKeys
import CaseGrouping.Proofs.Round.Propagation
import CaseGrouping.Proofs.Round.Runs
import Mathlib.Data.List.Induction

/-! The way through the queue: writes are grouped by their change, cut into jobs and enqueued one by
one. No case is lost or added on the way, nor is a change mixed up with another one, since the keys
tell the changes apart.
-/

namespace CaseGrouping

/-- The writes of a group. -/
def ChangeGroup.writes (g : ChangeGroup) : List CaseWrite :=
  g.cases.map (⟨·, g.change⟩)

/-- The writes that a job carries. -/
def Job.writes (job : Job) : List CaseWrite :=
  job.cases.map (⟨·, job.change⟩)

-----------------------------------------------------------------------------------------
-- Groups
-----------------------------------------------------------------------------------------

/-- The cases that writes address a change to, in the order of the writes. -/
def addressees (writes : List CaseWrite) (c : ChangeSet) : List CaseReference :=
  (writes.filter (·.change = c)).map CaseWrite.case

theorem addressees_concat (writes : List CaseWrite) (w : CaseWrite) (c : ChangeSet)
    : addressees (writes ++ [w]) c
      = if w.change = c then addressees writes c ++ [w.case] else addressees writes c := by
  by_cases same : w.change = c <;> simp [addressees, same]

theorem addressees_of_absent {writes : List CaseWrite} {c : ChangeSet}
    (absent : c ∉ writes.map CaseWrite.change)
    : addressees writes c = [] := by
  rw [addressees, List.map_eq_nil_iff, List.filter_eq_nil_iff]
  intro w member
  simp only [decide_eq_true_eq]
  rintro rfl
  exact absent (List.mem_map_of_mem member)

namespace ChangeGroup

/-- A write is added to the one group with its change, or comes last as a group of its own. By
induction on the changes.
-/
theorem add_map {changes : List ChangeSet} (distinct : changes.Nodup)
    (cases : ChangeSet → List CaseReference) (w : CaseWrite)
    : add (changes.map fun c => ⟨c, cases c⟩) w
      = if w.change ∈ changes then
          changes.map fun c => ⟨c, if w.change = c then cases c ++ [w.case] else cases c⟩
        else changes.map (fun c => ⟨c, cases c⟩) ++ [⟨w.change, [w.case]⟩] := by
  induction changes with
  | nil => rfl
  | cons c rest ih =>
      obtain ⟨fresh, distinct⟩ := List.nodup_cons.mp distinct
      rw [List.map_cons, add]
      by_cases same : w.change = c
      · subst same
        rw [if_pos rfl, if_pos List.mem_cons_self, List.map_cons, if_pos rfl]
        refine congrArg _ (List.map_congr_left fun d member => ?_)
        have apart : w.change ≠ d := by
          rintro rfl
          exact fresh member
        rw [if_neg apart]
      · have keys : c.contentKey ≠ w.change.contentKey := fun keys =>
          same (ChangeSet.contentKey_inj keys).symm
        rw [if_neg keys, ih distinct]
        by_cases known : w.change ∈ rest
        · rw [if_pos known, if_pos (List.mem_cons_of_mem _ known), List.map_cons, if_neg same]
        · rw [if_neg known, if_neg (by simp [known, same])]
          rfl

/-- The groups are those of the changes in the order of their first occurrences, each with all cases
that the change is addressed to. By induction on the writes from the end.
-/
theorem ofWrites_eq (writes : List CaseWrite)
    : ofWrites writes
      = (writes.map CaseWrite.change).eraseDups.map fun c => ⟨c, addressees writes c⟩ := by
  induction writes using List.reverseRecOn with
  | nil => rfl
  | append_singleton writes w ih =>
      have firsts := firstOccurrences_eraseDups (writes.map CaseWrite.change)
      rw [ofWrites, List.foldl_concat, ← ofWrites, ih, add_map firsts.nodup, List.map_append,
        List.map_singleton, eraseDups_concat]
      simp only [addressees_concat, List.mem_eraseDups]
      split
      next known => rfl
      next new =>
        have kept : ∀ c ∈ (writes.map CaseWrite.change).eraseDups, w.change ≠ c := by
          rintro c member rfl
          exact new (firsts.mem.mp member).1
        rw [List.map_append, List.map_singleton, if_pos rfl, addressees_of_absent new]
        refine congrArg (· ++ _) (List.map_congr_left fun c member => ?_)
        rw [if_neg (kept c member)]

/-- Adding a write adds it: the group that its case is put into has its change. -/
theorem writes_add (groups : List ChangeGroup) (w : CaseWrite)
    : ((add groups w).flatMap ChangeGroup.writes).Perm
        (groups.flatMap ChangeGroup.writes ++ [w]) := by
  induction groups with
  | nil => exact .refl _
  | cons g rest ih =>
      rw [add]
      split
      next same =>
        have change : g.change = w.change := ChangeSet.contentKey_inj same
        have joined : ChangeGroup.writes { g with cases := g.cases ++ [w.case] }
            = g.writes ++ [w] := by
          simp [ChangeGroup.writes, change]
        rw [List.flatMap_cons, List.flatMap_cons, joined, List.append_assoc, List.append_assoc]
        exact .append_left _ List.perm_append_comm
      next =>
        rw [List.flatMap_cons, List.flatMap_cons, List.append_assoc]
        exact .append_left _ ih

/-- The change of a group is that of a write. -/
theorem change_ofWrites {writes : List CaseWrite} {g : ChangeGroup}
    (member : g ∈ ofWrites writes)
    : ∃ w ∈ writes, w.change = g.change := by
  rw [ofWrites_eq] at member
  obtain ⟨c, first, rfl⟩ := List.mem_map.mp member
  exact List.mem_map.mp ((firstOccurrences_eraseDups _).mem.mp first).1

/-- Grouping keeps the writes, by induction on them from the end. -/
theorem writes_ofWrites (writes : List CaseWrite)
    : ((ofWrites writes).flatMap ChangeGroup.writes).Perm writes := by
  induction writes using List.reverseRecOn with
  | nil => exact .refl _
  | append_singleton writes w ih =>
      rw [ofWrites, List.foldl_concat, ← ofWrites]
      exact (writes_add _ w).trans (ih.append_right [w])

end ChangeGroup

-----------------------------------------------------------------------------------------
-- Pieces and jobs
-----------------------------------------------------------------------------------------

@[simp]
theorem piecesOf_nil {α : Type} (size : Nat) : piecesOf size ([] : List α) = [] := by
  rw [piecesOf, dif_pos (.inr rfl)]

/-- A list is cut at the size, and what is left is cut again. -/
theorem piecesOf_of_ne_nil {α : Type} {size : Nat} {items : List α} (pos : 0 < size)
    (some : items ≠ [])
    : piecesOf size items = items.take size :: piecesOf size (items.drop size) := by
  rw [piecesOf, dif_neg fun none => none.elim (Nat.ne_of_gt pos) some]

/-- What holds of no items, and of items if it holds of what is left after a cut, holds of all lists
of items. The induction is on their number.
-/
theorem pieces_induction {α : Type} {size : Nat} (pos : 0 < size) {motive : List α → Prop}
    (nil : motive [])
    (cut : ∀ items, items ≠ [] → motive (items.drop size) → motive items)
    : (items : List α) → motive items
  | [] => nil
  | a :: rest => cut (a :: rest) (List.cons_ne_nil a rest) (pieces_induction pos nil cut _)
termination_by items => items.length
decreasing_by
  simp only [List.length_drop, List.length_cons]
  omega

/-- The pieces of a list make it up again. -/
theorem flatten_piecesOf {α : Type} {size : Nat} (pos : 0 < size) (items : List α)
    : (piecesOf size items).flatten = items := by
  induction items using pieces_induction pos with
  | nil => simp
  | cut items some ih =>
      rw [piecesOf_of_ne_nil pos some, List.flatten_cons, ih, List.take_append_drop]

/-- The change of a job is that of a write. -/
theorem change_buildJobs (multiple : MultipleReference) (baseVersion : Option UInt64)
    {writes : List CaseWrite} {batchSize : Nat} (createdAt : Timestamp) {job : Job}
    (member : job ∈ buildJobs multiple baseVersion writes batchSize createdAt)
    : ∃ w ∈ writes, w.change = job.change := by
  obtain ⟨g, group, built⟩ := List.mem_flatMap.mp member
  obtain ⟨piece, _, rfl⟩ := List.mem_map.mp built
  exact ChangeGroup.change_ofWrites group

section Jobs

variable (multiple : MultipleReference) (baseVersion : Option UInt64) {batchSize : Nat}
  (pos : 0 < batchSize) (createdAt : Timestamp)

include pos

/-- The jobs carry the writes. -/
theorem writes_buildJobs (writes : List CaseWrite)
    : ((buildJobs multiple baseVersion writes batchSize createdAt).flatMap Job.writes).Perm
        writes := by
  have pieces : (buildJobs multiple baseVersion writes batchSize createdAt).flatMap Job.writes
      = (ChangeGroup.ofWrites writes).flatMap ChangeGroup.writes := by
    rw [buildJobs, List.flatMap_assoc]
    refine List.flatMap_congr fun g _ => ?_
    have whole := flatten_piecesOf pos g.cases
    rw [List.flatMap_map, ChangeGroup.writes]
    conv_rhs => rw [← whole, List.map_flatten, ← List.flatMap_def]
    rfl
  rw [pieces]
  exact ChangeGroup.writes_ofWrites writes

/-- The jobs address the cases that are written to. -/
theorem cases_buildJobs (writes : List CaseWrite)
    : ((buildJobs multiple baseVersion writes batchSize createdAt).flatMap Job.cases).Perm
        (writes.map CaseWrite.case) := by
  have addressed : (buildJobs multiple baseVersion writes batchSize createdAt).flatMap Job.cases
      = ((buildJobs multiple baseVersion writes batchSize createdAt).flatMap Job.writes).map
          CaseWrite.case := by
    rw [List.map_flatMap]
    exact List.flatMap_congr fun job _ => by simp [Job.writes, Function.comp_def]
  rw [addressed]
  exact (writes_buildJobs multiple baseVersion pos createdAt writes).map _

end Jobs

-----------------------------------------------------------------------------------------
-- Enqueueing
-----------------------------------------------------------------------------------------

/-- Between the stores before and after, nothing took place but that the queue took the jobs. -/
structure Stores.Queued (jobs : List Job) (before after : Stores) : Prop where
  cases : after.cases = before.cases
  multiples : after.multiples = before.multiples
  clock : after.clock = before.clock
  faults : after.queue.faults = before.queue.faults
  spared : after.queue.spared = before.queue.spared - jobs.length
  jobs : after.queue.jobs = before.queue.jobs ++ jobs

/-- (q.Takes n) says that a queue takes n jobs before it refuses one. -/
def UpdateQueue.Takes (q : UpdateQueue) (n : Nat) : Prop :=
  q.faults = [] ∨ n ≤ q.spared

namespace Stores.Queued

variable {s t u : Stores} {jobs more : List Job}

theorem refl (s : Stores) : s.Queued [] s :=
  ⟨rfl, rfl, rfl, rfl, rfl, (List.append_nil _).symm⟩

theorem trans (first : s.Queued jobs t) (next : t.Queued more u) : s.Queued (jobs ++ more) u :=
  ⟨next.cases.trans first.cases, next.multiples.trans first.multiples,
    next.clock.trans first.clock, next.faults.trans first.faults,
    by rw [next.spared, first.spared, List.length_append, Nat.sub_sub],
    by rw [next.jobs, first.jobs, List.append_assoc]⟩

theorem free (queued : s.Queued jobs t) (free : s.queue.faults = []) : t.queue.faults = [] :=
  queued.faults.trans free

/-- A queue that has taken some jobs takes as many less from then on. -/
theorem takes {n : Nat} (queued : s.Queued jobs t) (takes : s.queue.Takes (jobs.length + n))
    : t.queue.Takes n := by
  refine takes.imp queued.free fun spared => ?_
  rw [queued.spared]
  omega

end Stores.Queued

namespace Coordinator

variable {k : Coordinator} {s t : Stores} {jobs : List Job} {done result : Propagation}

/-- A job that is taken comes last in the queue, and faults are left as they are. -/
theorem enqueue_eq_ok {job : Job} {ack : QueueAck} (taken : Stores.enqueue job s = (.ok ack, t))
    : s.Queued [job] t := by
  have answer : s.queue.enqueue job = (.ok ack, t.queue) :=
    congrArg (fun x => (x.1, x.2.queue)) taken
  have cases : t.cases = s.cases := (congrArg (fun x => x.2.cases) taken).symm
  have multiples : t.multiples = s.multiples := (congrArg (fun x => x.2.multiples) taken).symm
  have clock : t.clock = s.clock := (congrArg (fun x => x.2.clock) taken).symm
  unfold UpdateQueue.enqueue at answer
  split at answer
  · cases answer
  · obtain ⟨_, queue⟩ := Prod.mk.inj answer
    exact ⟨cases, multiples, clock, by rw [← queue], by rw [← queue]; rfl, by rw [← queue]⟩

theorem enqueue_of_takes (job : Job) (takes : s.queue.Takes 1)
    : ∃ ack t, Stores.enqueue job s = (.ok ack, t) ∧ s.Queued [job] t := by
  have answer : ∃ ack, (s.queue.enqueue job).1 = .ok ack := by
    unfold UpdateQueue.enqueue
    split
    next faults spared => simp [UpdateQueue.Takes, faults, spared] at takes
    next => exact ⟨_, rfl⟩
  obtain ⟨ack, answer⟩ := answer
  have taken : Stores.enqueue job s = (.ok ack, (Stores.enqueue job s).2) := Prod.ext answer rfl
  exact ⟨ack, _, taken, enqueue_eq_ok taken⟩

/-- When all jobs were taken, their cases are reported as written, by induction on the jobs. -/
theorem enqueueAll_returns (returns : (enqueueAll jobs done).Returns s result t)
    : s.Queued jobs t
      ∧ result.written = done.written ++ jobs.flatMap Job.cases
      ∧ result.failures = done.failures := by
  induction jobs generalizing s done with
  | nil =>
      obtain ⟨rfl, rfl⟩ := Round.returns_pure.mp returns
      exact ⟨.refl t, by simp, rfl⟩
  | cons job rest ih =>
      obtain ⟨answer, u, asked, returns⟩ := Round.returns_bind.mp returns
      have asked := Round.returns_attempt.mp asked
      cases answer with
      | error e => cases returns
      | ok ack =>
          obtain ⟨next, written, failures⟩ := ih returns
          refine ⟨(enqueue_eq_ok asked).trans next, ?_, failures⟩
          rw [written, List.append_assoc]
          rfl

/-- A queue that refuses none of the jobs takes them all, by induction on them. -/
theorem enqueueAll_of_takes (jobs : List Job) (done : Propagation)
    (takes : s.queue.Takes jobs.length)
    : ∃ result t, (enqueueAll jobs done).Returns s result t := by
  induction jobs generalizing s done with
  | nil => exact ⟨done, s, rfl⟩
  | cons job rest ih =>
      obtain ⟨ack, u, taken, first⟩ := enqueue_of_takes job (takes.imp_right (by simp; omega))
      rw [List.length_cons, Nat.add_comm] at takes
      obtain ⟨result, t, returns⟩ :=
        ih { done with
          written := done.written ++ job.cases
          acknowledgements := done.acknowledgements ++ [ack] } (first.takes takes)
      exact ⟨result, t, Round.returns_bind.mpr
        ⟨.ok ack, u, Round.returns_attempt.mpr taken, returns⟩⟩

/-- A job that is refused ends the round; those before it are in the queue. The induction is on the
jobs.
-/
theorem enqueueAll_refused {refused : Job} {cause : QueueError} {more : List QueueError}
    (done : Propagation) (next : jobs[s.queue.spared]? = some refused)
    (faults : s.queue.faults = cause :: more)
    : ∃ t,
        (enqueueAll jobs done).Fails s (.queueSubmission refused.id cause) t
        ∧ t.cases = s.cases
        ∧ t.multiples = s.multiples
        ∧ t.queue.jobs = s.queue.jobs ++ jobs.take s.queue.spared := by
  induction jobs generalizing s done with
  | nil => cases next
  | cons job rest ih =>
      cases spared : s.queue.spared with
      | zero =>
          obtain rfl : job = refused := by simpa [spared] using next
          have answer : s.queue.enqueue job = (.error cause, { s.queue with faults := more }) := by
            unfold UpdateQueue.enqueue
            split
            next same _ =>
              rw [faults] at same
              cases same
              rfl
            next takes => exact absurd spared (takes _ _ faults)
          have refuses : (Stores.enqueue job s).1 = .error cause := congrArg Prod.fst answer
          refine ⟨(Stores.enqueue job s).2, Round.fails_bind.mpr (.inr ⟨_, _,
            Round.returns_attempt.mpr (Prod.ext refuses rfl), rfl⟩), rfl, rfl, ?_⟩
          have queue : (Stores.enqueue job s).2.queue = { s.queue with faults := more } :=
            congrArg Prod.snd answer
          rw [queue, List.take_zero, List.append_nil]
      | succ n =>
          obtain ⟨ack, u, taken, first⟩ := enqueue_of_takes (s := s) job (.inr (by omega))
          have left : u.queue.spared = n := by
            rw [first.spared, spared]
            rfl
          rw [spared, List.getElem?_cons_succ, ← left] at next
          obtain ⟨t, fails, cases, multiples, queue⟩ :=
            ih { done with
              written := done.written ++ job.cases
              acknowledgements := done.acknowledgements ++ [ack] } next (first.faults.trans faults)
          have returns := Round.returns_attempt.mpr taken
          refine ⟨t, Round.fails_bind.mpr (.inr ⟨.ok ack, u, returns, fails⟩),
            cases.trans first.cases, multiples.trans first.multiples, ?_⟩
          rw [queue, first.jobs, left, List.append_assoc]
          rfl

/-- The jobs that a plan is handed to the queue as, when the clock shows a time. -/
def jobsOf (k : Coordinator) (multiple : MultipleReference) (baseVersion : Option UInt64)
    (plan : PropagationPlan) (now : Timestamp) : List Job :=
  buildJobs multiple baseVersion plan.detach k.batchSize now
    ++ buildJobs multiple baseVersion plan.write k.batchSize now

/-- The jobs of a plan address the cases that it writes to. -/
theorem cases_jobsOf (k : Coordinator) (multiple : MultipleReference)
    (baseVersion : Option UInt64) (plan : PropagationPlan) (now : Timestamp)
    : ((k.jobsOf multiple baseVersion plan now).flatMap Job.cases).Perm
        (plan.writes.map CaseWrite.case) := by
  rw [jobsOf, PropagationPlan.writes, List.flatMap_append, List.map_append]
  exact (cases_buildJobs multiple baseVersion k.batchSize_pos now plan.detach).append
    (cases_buildJobs multiple baseVersion k.batchSize_pos now plan.write)

/-- The jobs of a plan carry its writes. -/
theorem writes_jobsOf (k : Coordinator) (multiple : MultipleReference)
    (baseVersion : Option UInt64) (plan : PropagationPlan) (now : Timestamp)
    : ((k.jobsOf multiple baseVersion plan now).flatMap Job.writes).Perm plan.writes := by
  rw [jobsOf, PropagationPlan.writes, List.flatMap_append]
  exact (writes_buildJobs multiple baseVersion k.batchSize_pos now plan.detach).append
    (writes_buildJobs multiple baseVersion k.batchSize_pos now plan.write)

theorem mem_writes_jobsOf {multiple : MultipleReference} {baseVersion : Option UInt64}
    {plan : PropagationPlan} {now : Timestamp} {job : Job} {w : CaseWrite}
    (member : job ∈ k.jobsOf multiple baseVersion plan now) (carried : w ∈ job.writes)
    : w ∈ plan.writes :=
  (k.writes_jobsOf multiple baseVersion plan now).mem_iff.mp
    (List.mem_flatMap.mpr ⟨job, member, carried⟩)

/-- A plan that was handed over is in the queue as its jobs, and no case has failed. -/
theorem enqueuePlan_returns {multiple : MultipleReference} {baseVersion : Option UInt64}
    {plan : PropagationPlan}
    (returns : (k.enqueuePlan multiple baseVersion plan).Returns s result t)
    : s.Queued (k.jobsOf multiple baseVersion plan (.ofMillis s.clock)) t
      ∧ (∀ r, r ∈ result.written ↔ r ∈ plan.writes.map CaseWrite.case)
      ∧ result.failures = [] := by
  obtain ⟨now, u, told, returns⟩ := Round.returns_bind.mp returns
  cases Round.returns_attempt.mp told
  obtain ⟨queued, written, failures⟩ := enqueueAll_returns returns
  refine ⟨queued, fun r => ?_, failures⟩
  rw [written]
  exact (k.cases_jobsOf multiple baseVersion plan (.ofMillis s.clock)).mem_iff

theorem enqueuePlan_of_takes (multiple : MultipleReference) (baseVersion : Option UInt64)
    (plan : PropagationPlan)
    (takes
      : s.queue.Takes (k.jobsOf multiple baseVersion plan (.ofMillis s.clock)).length)
    : ∃ result t, (k.enqueuePlan multiple baseVersion plan).Returns s result t :=
  enqueueAll_of_takes (k.jobsOf multiple baseVersion plan (.ofMillis s.clock)) {} takes

/-- A plan one of whose jobs is refused is not handed over any further. -/
theorem enqueuePlan_refused {multiple : MultipleReference} {baseVersion : Option UInt64}
    {plan : PropagationPlan} {refused : Job} {cause : QueueError} {more : List QueueError}
    (next
      : (k.jobsOf multiple baseVersion plan (.ofMillis s.clock))[s.queue.spared]? = some refused)
    (faults : s.queue.faults = cause :: more)
    : ∃ t,
        (k.enqueuePlan multiple baseVersion plan).Fails s (.queueSubmission refused.id cause) t
        ∧ t.cases = s.cases
        ∧ t.multiples = s.multiples
        ∧ t.queue.jobs
          = s.queue.jobs
            ++ (k.jobsOf multiple baseVersion plan (.ofMillis s.clock)).take s.queue.spared :=
  enqueueAll_refused {} next faults

end Coordinator

end CaseGrouping
