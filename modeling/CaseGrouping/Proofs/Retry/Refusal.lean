import CaseGrouping.Proofs.Durable.Convergence
import CaseGrouping.Proofs.Retry.Verdicts

/-! Rounds through the queue that are retried after a job was refused. Whatever the consumer has
made of the jobs before it by then, the retry comes to the same work, and enqueues the same jobs.
-/

namespace CaseGrouping

/-- The job, built at another time. -/
def Job.stamped (createdAt : Timestamp) (job : Job) : Job :=
  { job with createdAt }

/-- The stores in which the queue takes n jobs and refuses the next one. -/
def Stores.refuseAfter (s : Stores) (n : Nat) (cause : QueueError) : Stores :=
  { s with queue := { s.queue with faults := [cause], spared := n } }

theorem Stores.InMemory.refuseAfter {s : Stores} (inMemory : s.InMemory) (n : Nat)
    (cause : QueueError)
    : (s.refuseAfter n cause).InMemory :=
  ⟨inMemory.keyed, inMemory.filed, inMemory.unset, inMemory.hooks⟩

-----------------------------------------------------------------------------------------
-- The jobs of a round
-----------------------------------------------------------------------------------------

namespace Coordinator

variable {k : Coordinator} {s t u : Stores} {request : RoundRequest} {work : Work}
  {r : Reconciliation} {m : Movement} {written : List CaseReference} {members : List Member}

/-- The jobs that the work of a round is handed to the queue as, when the clock shows a time. -/
def jobsFor (k : Coordinator) (now : Timestamp) : Work → List Job
  | .reconcile r => k.jobsOf r.reference r.expected r.plan now
  | .move m =>
      k.jobsOf m.target.reference m.target.expected m.target.plan now
        ++ k.jobsOf m.source.reference m.source.expected { m.source.plan with detach := [] } now

/-- The time that a job is built at makes no other difference to it. -/
theorem stamped_buildJobs (multiple : MultipleReference) (baseVersion : Option UInt64)
    (writes : List CaseWrite) (batchSize : Nat) (now later : Timestamp)
    : (buildJobs multiple baseVersion writes batchSize now).map (Job.stamped later)
      = buildJobs multiple baseVersion writes batchSize later := by
  simp only [buildJobs, List.map_flatMap, List.map_map]
  rfl

theorem stamped_jobsFor (k : Coordinator) (work : Work) (now later : Timestamp)
    : (k.jobsFor now work).map (Job.stamped later) = k.jobsFor later work := by
  cases work <;> simp only [jobsFor, jobsOf, List.map_append, stamped_buildJobs]

/-- Neither settling nor committing touches the queue, once the writes are in it. -/
theorem settle_keeps_queue {queue : UpdateQueue} (mode : r.mode = .durableQueue)
    : (k.settle r written).Keeps fun u => u.queue = queue := by
  rw [settle_durable mode]
  exact Round.keeps_pure _

theorem commit_keeps_queue {queue : UpdateQueue}
    : (k.commit r members).Keeps fun u => u.queue = queue :=
  Round.keeps_multiples fun _ same => same

theorem propagate_durable {reference : MultipleReference} {expected : Option UInt64}
    {plan : PropagationPlan}
    : k.propagate reference expected plan .durableQueue
      = k.enqueuePlan reference expected plan :=
  rfl

/-- A queue without faults gets the jobs of the work, whether their round succeeds or not. -/
theorem perform_enqueues (prepared : work.Prepared request u) (mode : request.mode = .durableQueue)
    (free : s.queue.faults = [])
    : ((k.perform work).runOn s).2.queue.jobs
      = s.queue.jobs ++ k.jobsFor (.ofMillis s.clock) work := by
  let after (run : Except RoundError RoundOutcome × Stores) : UpdateQueue := run.2.queue
  cases work with
  | reconcile r =>
      have durable : r.mode = .durableQueue := prepared.mode.trans mode
      obtain ⟨done, t, propagates⟩ :=
        k.enqueuePlan_of_takes r.reference r.expected r.plan (.inl free)
      obtain ⟨queued, _⟩ := enqueuePlan_returns propagates
      rw [← propagate_durable, ← durable] at propagates
      have checked := checkReference_returns (s := s) prepared.reference
      have ends : ((k.reconcile r).runOn s).2.queue = t.queue := by
        refine (congrArg after (Round.runOn_bind_of_returns checked)).trans ?_
        refine (congrArg after (Round.runOn_bind_of_returns propagates)).trans ?_
        refine Round.keeps_bind (settle_keeps_queue durable) (fun settled => ?_) rfl
        exact Round.keeps_bind commit_keeps_queue fun _ => Round.keeps_pure _
      exact (congrArg UpdateQueue.jobs ends).trans queued.jobs
  | move m =>
      have target : m.target.mode = .durableQueue := prepared.targetMode.trans mode
      have source : m.source.mode = .durableQueue := prepared.sourceMode.trans mode
      obtain ⟨toTarget, t, propagates⟩ :=
        k.enqueuePlan_of_takes m.target.reference m.target.expected m.target.plan (.inl free)
      obtain ⟨queued, _⟩ := enqueuePlan_returns propagates
      obtain ⟨toSource, v, propagates'⟩ :=
        k.enqueuePlan_of_takes m.source.reference m.source.expected
          { m.source.plan with detach := [] } (.inl (queued.free free))
      obtain ⟨queued', _⟩ := enqueuePlan_returns propagates'
      rw [← propagate_durable, ← target] at propagates
      rw [← propagate_durable, ← source] at propagates'
      have ends : ((k.move m).runOn s).2.queue = v.queue := by
        refine (congrArg after (Round.runOn_bind_of_returns propagates)).trans ?_
        refine (congrArg after (Round.runOn_bind_of_returns propagates')).trans ?_
        refine Round.keeps_bind (settle_keeps_queue target) (fun targetMembers => ?_) rfl
        refine Round.keeps_bind (settle_keeps_queue source) fun sourceMembers => ?_
        refine Round.keeps_bind commit_keeps_queue fun committedTarget => ?_
        exact Round.keeps_bind commit_keeps_queue fun _ => Round.keeps_pure _
      refine (congrArg UpdateQueue.jobs ends).trans ?_
      rw [(queued.trans queued').jobs, queued.clock]
      rfl

/-- A queue that refuses a job of the work gets the jobs before it. -/
theorem perform_refused {refused : Job} {cause : QueueError} {more : List QueueError}
    (prepared : work.Prepared request u) (mode : request.mode = .durableQueue)
    (next : (k.jobsFor (.ofMillis s.clock) work)[s.queue.spared]? = some refused)
    (faults : s.queue.faults = cause :: more)
    : ∃ t,
        (k.perform work).Fails s (.queueSubmission refused.id cause) t
        ∧ t.cases = s.cases
        ∧ t.multiples = s.multiples
        ∧ t.queue.jobs
          = s.queue.jobs ++ (k.jobsFor (.ofMillis s.clock) work).take s.queue.spared := by
  cases work with
  | reconcile r =>
      have durable : r.mode = .durableQueue := prepared.mode.trans mode
      have checked := checkReference_returns (s := s) prepared.reference
      obtain ⟨t, fails, left⟩ := enqueuePlan_refused (k := k) next faults
      rw [← propagate_durable, ← durable] at fails
      refine ⟨t, Round.fails_bind.mpr (.inr ⟨(), s, checked, ?_⟩), left⟩
      exact Round.fails_bind.mpr (.inl fails)
  | move m =>
      have target : m.target.mode = .durableQueue := prepared.targetMode.trans mode
      have source : m.source.mode = .durableQueue := prepared.sourceMode.trans mode
      let toTarget := k.jobsOf m.target.reference m.target.expected m.target.plan
        (.ofMillis s.clock)
      by_cases early : s.queue.spared < toTarget.length
      · have inTarget : toTarget[s.queue.spared]? = some refused :=
          (List.getElem?_append_left early).symm.trans next
        obtain ⟨t, fails, cases, multiples, queue⟩ := enqueuePlan_refused (k := k) inTarget faults
        rw [← propagate_durable, ← target] at fails
        refine ⟨t, Round.fails_bind.mpr (.inl fails), cases, multiples, ?_⟩
        rw [queue, jobsFor, List.take_append_of_le_length (Nat.le_of_lt early)]
      · have late : toTarget.length ≤ s.queue.spared := Nat.le_of_not_lt early
        obtain ⟨done, v, propagates⟩ :=
          k.enqueuePlan_of_takes m.target.reference m.target.expected m.target.plan (.inr late)
        obtain ⟨queued, _⟩ := enqueuePlan_returns propagates
        have left : v.queue.spared = s.queue.spared - toTarget.length := queued.spared
        have inSource := (List.getElem?_append_right late).symm.trans next
        rw [← left, ← queued.clock] at inSource
        obtain ⟨t, fails, cases, multiples, queue⟩ :=
          enqueuePlan_refused (k := k) inSource (queued.faults.trans faults)
        rw [← propagate_durable, ← target] at propagates
        rw [← propagate_durable, ← source] at fails
        refine ⟨t, Round.fails_bind.mpr (.inr ⟨done, v, propagates, ?_⟩),
          cases.trans queued.cases, multiples.trans queued.multiples, ?_⟩
        · exact Round.fails_bind.mpr (.inl fails)
        · rw [queue, queued.jobs, left, queued.clock, jobsFor, List.take_append,
            List.take_of_length_le late, List.append_assoc]

end Coordinator

-----------------------------------------------------------------------------------------
-- Jobs that have been delivered
-----------------------------------------------------------------------------------------

section Delivered

variable {s : Stores} {m : MultipleReference} {cases : Register CaseReference SingleCase}

theorem CaseStore.Truthful.replay (truthful : s.cases.Truthful) (job : Job)
    : (s.replay job).cases.Truthful := by
  unfold Stores.replay
  dsimp only
  generalize s.cases = cases at truthful ⊢
  induction job.cases generalizing cases with
  | nil => exact truthful
  | cons r rest ih =>
      rw [List.foldl_cons]
      split
      · exact ih _ ⟨truthful.keyed.insert _, truthful.unset, truthful.answering⟩
      · exact ih _ truthful

theorem foldl_replay_truthful (deliveries : List Job) (truthful : s.cases.Truthful)
    : (deliveries.foldl Stores.replay s).cases.Truthful := by
  induction deliveries generalizing s with
  | nil => exact truthful
  | cons job rest ih => exact ih (truthful.replay job)

theorem foldl_replay_multiples (deliveries : List Job) (s : Stores)
    : (deliveries.foldl Stores.replay s).multiples = s.multiples := by
  induction deliveries generalizing s with
  | nil => rfl
  | cons job rest ih => exact ih (s.replay job)

end Delivered

namespace Coordinator

variable {k : Coordinator} {s t u : Stores} {request : RoundRequest} {work : Work}
  {r : Reconciliation} {jobs : List Job} {reference : MultipleReference}

/-- What the jobs of a reconciliation write spares the verdicts of its multiple. -/
theorem spares_jobsFor {now : Timestamp} {job : Job} {w : CaseWrite}
    (prepared : r.Prepared request s) (member : job ∈ k.jobsFor now (.reconcile r))
    (carried : w ∈ job.writes)
    : w.Spares r.reference s.cases.records :=
  prepared.spares (mem_writes_jobsOf member carried)

/-- The multiple whose joiners a request asks about, if it carries a reference. -/
def joined? (request : RoundRequest) : Option MultipleReference :=
  if request.target? = none then request.multiple.reference else none

theorem prepare_repeats_joined (own : request.multiple.reference = some reference)
    : (k.prepare request).Repeats (joined? request) :=
  prepare_repeats own fun stays => by rw [joined?, if_pos stays]; exact own

/-- Stores in which jobs of the work were delivered answer the questions of the round alike. -/
theorem alike_delivered {now : Timestamp} (prepared : work.Prepared request s)
    (own : request.multiple.reference = some reference)
    (stays : request.target? = none → ∃ r, work = .reconcile r)
    (alike : s.Alike (joined? request) t) (same : t.cases.records = s.cases.records)
    {deliveries : List Job} (delivered : ∀ job ∈ deliveries, job ∈ k.jobsFor now work)
    (queue : UpdateQueue) (clock : Nat)
    : s.Alike (joined? request) { deliveries.foldl Stores.replay t with queue, clock } := by
  have multiples := foldl_replay_multiples deliveries t
  refine ⟨alike.truthful, foldl_replay_truthful deliveries alike.truthful', ?_, ?_, ?_⟩
  · exact (congrArg MultipleStore.records multiples).trans alike.records
  · exact (congrArg MultipleStore.loadFault multiples).trans alike.loadFault
  · intro m asked case
    unfold joined? at asked
    split at asked
    next stays' =>
      obtain ⟨r, rfl⟩ := stays stays'
      have prepared : r.Prepared request s := prepared
      obtain rfl : r.reference = m :=
        Option.some.inj ((prepared.named own).symm.trans asked)
      have records : (deliveries.foldl Stores.replay t).cases.records
          = afterWrites s.cases.records (deliveries.flatMap Job.writes) := by
        rw [Stores.foldl_replay_records deliveries alike.truthful'.keyed, same]
      change verdict? (deliveries.foldl Stores.replay t).cases.records _ _ = _
      rw [records]
      refine verdict?_afterWrites (fun w member => ?_) case
      obtain ⟨job, listed, carried⟩ := List.mem_flatMap.mp member
      exact spares_jobsFor prepared (delivered job listed) carried
    · cases asked

-----------------------------------------------------------------------------------------
-- Rounds
-----------------------------------------------------------------------------------------

/-- A round that comes to some work enqueues the jobs of it. -/
theorem carryOut_enqueues (inMemory : s.InMemory) (free : s.queue.faults = [])
    (mode : request.mode = .durableQueue) (prepares : (k.prepare request).Returns s work t)
    : ((k.carryOut request).runOn s).2.queue.jobs
      = s.queue.jobs ++ k.jobsFor (.ofMillis s.clock) work := by
  obtain ⟨asked, prepared⟩ := prepare_returns inMemory prepares
  rw [carryOut_eq, Round.runOn_bind_of_returns prepares, perform_enqueues prepared mode
    ((congrArg UpdateQueue.faults asked.queue).trans free), asked.queue, asked.clock]

/-- Jobs are enqueued by rounds that come to some work only. -/
theorem prepares_of_enqueues {job : Job}
    (enqueues : ((k.carryOut request).runOn s).2.queue.jobs = s.queue.jobs ++ jobs)
    (some : job ∈ jobs)
    : ∃ work t, (k.prepare request).Returns s work t := by
  have asked := k.prepare_asked request s
  rw [carryOut_eq, Round.runOn_bind] at enqueues
  cases prepares : (k.prepare request).runOn s with
  | mk answer t =>
      cases answer with
      | ok work => exact ⟨work, t, prepares⟩
      | error e =>
          rw [prepares] at asked enqueues
          dsimp only at asked enqueues
          rw [asked.queue, List.self_eq_append_right] at enqueues
          rw [enqueues] at some
          cases some

/-- A round comes to the same work when a job is refused, and fails with the jobs before it in the
queue. What it leaves answers questions as before.
-/
theorem carryOut_stopped (inMemory : s.InMemory) (truthful : s.cases.Truthful)
    (mode : request.mode = .durableQueue) (own : request.multiple.reference = some reference)
    (prepares : (k.prepare request).Returns s work t) {n : Nat} {refused : Job}
    (next : (k.jobsFor (.ofMillis s.clock) work)[n]? = some refused) (cause : QueueError)
    : ∃ u,
        (k.carryOut request).Fails (s.refuseAfter n cause) (.queueSubmission refused.id cause) u
        ∧ s.Alike (joined? request) u
        ∧ u.cases.records = s.cases.records
        ∧ u.multiples.records = s.multiples.records
        ∧ u.queue.jobs = s.queue.jobs ++ (k.jobsFor (.ofMillis s.clock) work).take n := by
  have repeats : (k.prepare request).Repeats (joined? request) := prepare_repeats_joined own
  let s' := s.refuseAfter n cause
  have alike : s.Alike (joined? request) s' := ⟨truthful, truthful, rfl, rfl, fun _ _ _ => rfl⟩
  have inMemory' : s'.InMemory := inMemory.refuseAfter n cause
  obtain ⟨p, prepares'⟩ := (repeats truthful prepares).2 alike
  obtain ⟨asked, prepared⟩ := prepare_returns inMemory' prepares'
  have between := (repeats (s := s') truthful prepares').1
  have queue : p.queue = s'.queue := asked.queue
  have refuses : p.queue.faults = [cause] := by rw [queue]; rfl
  have next' : (k.jobsFor (.ofMillis p.clock) work)[p.queue.spared]? = some refused := by
    rw [queue, asked.clock]
    exact next
  obtain ⟨u, fails, cases, multiples, jobs⟩ := perform_refused prepared mode next' refuses
  rw [queue, asked.clock] at jobs
  refine ⟨u, ?_, (alike.trans between).congr cases multiples, ?_, ?_, jobs⟩
  · rw [carryOut_eq]
    exact Round.fails_bind.mpr (.inr ⟨work, p, prepares', fails⟩)
  · rw [cases]
    exact asked.cases
  · rw [multiples]
    exact asked.multiples

/-- A job that is refused ends a round with nothing but the jobs before it in the queue. However
many of these have been delivered by then, the retry enqueues all jobs of the round, with the
identities that they had.
-/
theorem carryOut_refused (k : Coordinator) (inMemory : s.InMemory)
    (answering : s.cases.searchFault = none ∨ s.cases.retrieveFaults = ∅)
    (free : s.queue.faults = []) (mode : request.mode = .durableQueue)
    (own : request.multiple.reference = some reference) {n : Nat} {refused : Job}
    (enqueues : ((k.carryOut request).runOn s).2.queue.jobs = s.queue.jobs ++ jobs)
    (next : jobs[n]? = some refused) (cause : QueueError)
    : ∃ t,
        (k.carryOut request).Fails (s.refuseAfter n cause) (.queueSubmission refused.id cause) t
        ∧ t.cases.records = s.cases.records
        ∧ t.multiples.records = s.multiples.records
        ∧ t.queue.jobs = s.queue.jobs ++ jobs.take n
        ∧ ∀ (deliveries : List Job) (queue : UpdateQueue) (clock : Nat),
            (∀ job ∈ deliveries, job ∈ jobs.take n)
            → queue.faults = []
            → ((k.carryOut request).runOn
                { deliveries.foldl Stores.replay t with queue, clock }).2.queue.jobs
              = queue.jobs ++ jobs.map (Job.stamped (.ofMillis clock)) := by
  obtain ⟨work, p, prepares⟩ := prepares_of_enqueues enqueues (List.mem_of_getElem? next)
  obtain ⟨_, prepared⟩ := prepare_returns inMemory prepares
  have truthful : s.cases.Truthful := ⟨inMemory.keyed, inMemory.unset, answering⟩
  obtain rfl : k.jobsFor (.ofMillis s.clock) work = jobs :=
    List.append_cancel_left ((carryOut_enqueues inMemory free mode prepares).symm.trans enqueues)
  obtain ⟨t, failed, alike, cases, multiples, taken⟩ :=
    carryOut_stopped inMemory truthful mode own prepares next cause
  have kept : t.InMemory :=
    (Stores.InMemory.kept.carryOut request).of_fails (inMemory.refuseAfter n cause) failed
  refine ⟨t, failed, cases, multiples, taken, fun deliveries queue clock delivered free' => ?_⟩
  -- The retry comes to the same work too, and its queue takes all jobs.
  let u : Stores := { deliveries.foldl Stores.replay t with queue, clock }
  have retried : s.Alike (joined? request) u :=
    alike_delivered (k := k) prepared own (prepares_of_returns prepares).reconciles alike cases
      (fun job listed => List.mem_of_mem_take (delivered job listed)) queue clock
  have multiples' : u.multiples = t.multiples := foldl_replay_multiples deliveries t
  have inMemory' : u.InMemory :=
    ⟨retried.truthful'.keyed, multiples' ▸ kept.filed, retried.truthful'.unset,
      multiples' ▸ kept.hooks⟩
  obtain ⟨q, prepares'⟩ := (prepare_repeats_joined own truthful prepares).2 retried
  rw [stamped_jobsFor]
  exact carryOut_enqueues inMemory' free' mode prepares'

end Coordinator

/-- The second of two jobs is refused. The first one is delivered and taken from the queue, and the
retry enqueues both, whenever it is.
-/
theorem Sample.repeated_of_refused
    : ∃ refused t,
        attaching[1]? = some refused
        ∧ (coordinator.carryOut (joining .durableQueue)).Fails
            ((stores []).refuseAfter 1 (.transport "down"))
            (.queueSubmission refused.id (.transport "down")) t
        ∧ t.queue.jobs = attaching.take 1
        ∧ ∀ clock,
            ((coordinator.carryOut (joining .durableQueue)).runOn
                { (attaching.take 1).foldl Stores.replay t with queue := {}, clock }).2.queue.jobs
              = attaching.map (Job.stamped (.ofMillis clock)) := by
  have none : (stores []).queue.jobs = [] := rfl
  have both : attaching.length = 2 := by decide +kernel
  have enqueues : ((coordinator.carryOut (joining .durableQueue)).runOn (stores [])).2.queue.jobs
      = (stores []).queue.jobs ++ attaching := by
    rw [attaching, Stores.newJobs, none, List.length_nil, List.drop_zero, List.nil_append]
  obtain ⟨refused, next⟩ : ∃ refused, attaching[1]? = some refused :=
    ⟨_, List.getElem?_eq_getElem (by rw [both]; decide)⟩
  have own : (joining .durableQueue).multiple.reference = some group := rfl
  obtain ⟨t, fails, _, _, queue, again⟩ := coordinator.carryOut_refused
    (reachable_stores []).inMemory (.inl rfl) rfl rfl own enqueues next (.transport "down")
  rw [none, List.nil_append] at queue
  refine ⟨refused, t, next, fails, queue, fun clock => ?_⟩
  simpa only [List.nil_append] using again (attaching.take 1) {} clock (fun _ => id) rfl

end CaseGrouping
