import CaseGrouping.Proofs.Durable.Completion

/-! The way through the queue refines the way through the pool: it commits the same records, reports
the same failures, and its jobs make of the cases what the pool makes of them.
-/

namespace CaseGrouping

-----------------------------------------------------------------------------------------
-- Rounds that cannot be told apart
-----------------------------------------------------------------------------------------

/-- (Agree rel x y) says that the results x and y are related values, or the same error. -/
def Agree {ε α β : Type} (rel : α → β → Prop) : Except ε α → Except ε β → Prop
  | .ok a, .ok b => rel a b
  | .error e, .error f => e = f
  | _, _ => False

theorem Agree.of_eq {ε α : Type} {x y : Except ε α} (same : x = y) : Agree (· = ·) x y := by
  subst same
  cases x <;> exact rfl

namespace Round

/-- (x.Alike rel y) says that two parts of rounds have results that agree and leave the same
multiples when they find the same multiples.
-/
def Alike (rel : α → β → Prop) (x : Round α) (y : Round β) : Prop :=
  ∀ ⦃s t : Stores⦄,
    s.multiples = t.multiples
    → Agree rel (x.runOn s).1 (y.runOn t).1
      ∧ (x.runOn s).2.multiples = (y.runOn t).2.multiples

theorem alike_pure {rel : α → β → Prop} {a : α} {b : β} (related : rel a b)
    : (pure a : Round α).Alike rel (pure b : Round β) :=
  fun _ _ same => ⟨related, same⟩

/-- Parts that are alike go on alike. -/
theorem alike_bind {rel : α → β → Prop} {rel' : γ → δ → Prop} {x : Round α} {y : Round β}
    {f : α → Round γ} {g : β → Round δ} (first : x.Alike rel y)
    (next : ∀ a b, rel a b → (f a).Alike rel' (g b))
    : (x >>= f).Alike rel' (y >>= g) := by
  intro s t same
  have related := first same
  rw [runOn_bind, runOn_bind]
  generalize x.runOn s = left at related ⊢
  generalize y.runOn t = right at related ⊢
  obtain ⟨agree, multiples⟩ := related
  rcases left with ⟨_ | a, u⟩ <;> rcases right with ⟨_ | b, v⟩
  · exact ⟨agree, multiples⟩
  · exact False.elim agree
  · exact False.elim agree
  · exact next a b agree multiples

/-- What a call to the store of multiples comes to depends on the multiples only. -/
theorem alike_commit (k : Coordinator) (m : Multiple) (members : List Member)
    (expected : Option UInt64)
    : (k.commitMembers m members expected).Alike (· = ·) (k.commitMembers m members expected) := by
  intro s t same
  have commits : s.multiples.commit (m.withMembers members).clearSearch expected
      = t.multiples.commit (m.withMembers members).clearSearch expected := by
    rw [same]
  exact ⟨.of_eq (congrArg (fun answer => answer.1.mapError RoundError.ofMultipleStore) commits),
    congrArg Prod.snd commits⟩

end Round

/-- Two outcomes have the same records and the same failures. -/
structure RoundOutcome.Same (a b : RoundOutcome) : Prop where
  multiple : a.multiple = b.multiple
  movedTo : a.movedTo = b.movedTo
  failures : a.failures = b.failures

-----------------------------------------------------------------------------------------
-- Both modes
-----------------------------------------------------------------------------------------

namespace Coordinator

open Round

variable {k : Coordinator} {s t : Stores} {request : RoundRequest} {work : Work}
  {mode mode' : PropagationMode} {jobs n n' : Nat}

/-- The completion of a round does not depend on the mode. -/
theorem complete_alike (k : Coordinator) (work : Work)
    : (k.complete n (work.inMode mode)).Alike RoundOutcome.Same
        (k.complete n' (work.inMode mode')) := by
  cases work with
  | reconcile r =>
      refine alike_bind (alike_commit k r.multiple _ r.expected) ?_
      rintro committed _ rfl
      exact alike_pure ⟨rfl, rfl, rfl⟩
  | move m =>
      refine alike_bind (alike_commit k m.target.multiple _ m.target.expected) ?_
      rintro committedTarget _ rfl
      refine alike_bind (alike_commit k m.source.multiple _ m.source.expected) ?_
      rintro committedSource _ rfl
      exact alike_pure ⟨rfl, rfl, rfl⟩

/-- The completion of a round touches neither the cases nor the queue. -/
theorem complete_keeps (k : Coordinator) (work : Work) (s : Stores)
    : (k.complete n work).Keeps fun u => u.cases = s.cases ∧ u.queue = s.queue := by
  cases work with
  | reconcile r =>
      exact keeps_bind (keeps_multiples fun _ h => h) fun _ => keeps_pure _
  | move m =>
      refine keeps_bind (keeps_multiples fun _ h => h) fun _ => ?_
      exact keeps_bind (keeps_multiples fun _ h => h) fun _ => keeps_pure _

theorem prepareCreation_inMode (k : Coordinator) (request : BulkCreation) (mode : PropagationMode)
    : k.prepareCreation { request with mode }
      = k.prepareCreation request >>= fun work => pure (work.inMode mode) := by
  simp only [prepareCreation, bind_assoc]
  congr 1
  funext valid
  split
  · rfl
  · rw [bind_assoc]
    congr 1
    funext assigned
    rw [bind_assoc]
    congr 1
    funext joiners
    split <;> rfl

theorem prepareTarget_inMode (k : Coordinator) (request : BulkUpdate) (mode : PropagationMode)
    (reference : MultipleReference) (expected : Option UInt64)
    : k.prepareTarget { request with mode } reference expected
      = k.prepareTarget request reference expected >>= fun work => pure (work.inMode mode) := by
  unfold prepareTarget
  dsimp only
  cases request.target with
  | none =>
      dsimp only
      rw [bind_assoc]
      rfl
  | some target =>
      dsimp only
      rw [bind_assoc]
      congr 1
      funext stored
      cases stored.reference <;> rfl

theorem prepareUpdate_inMode (k : Coordinator) (request : BulkUpdate) (mode : PropagationMode)
    : k.prepareUpdate { request with mode }
      = k.prepareUpdate request >>= fun work => pure (work.inMode mode) := by
  simp only [prepareUpdate, bind_assoc]
  congr 1
  funext valid
  cases request.multiple.reference with
  | none => rfl
  | some reference =>
      dsimp only
      rw [bind_assoc]
      congr 1
      funext expected
      exact k.prepareTarget_inMode request mode reference expected

/-- Preparation does not look at the mode. -/
theorem prepare_inMode (k : Coordinator) (request : RoundRequest) (mode : PropagationMode)
    : k.prepare (request.inMode mode)
      = k.prepare request >>= fun work => pure (work.inMode mode) := by
  cases request with
  | create request => exact k.prepareCreation_inMode request mode
  | update request => exact k.prepareUpdate_inMode request mode

/-- A round in a mode does the work that the request comes to in any mode. -/
theorem carryOut_inMode (k : Coordinator) (request : RoundRequest) (mode : PropagationMode)
    (s : Stores)
    : (k.carryOut (request.inMode mode)).runOn s
      = match (k.prepare request).runOn s with
        | (.ok work, u) => (k.perform (work.inMode mode)).runOn u
        | (.error e, u) => (.error e, u) := by
  rw [carryOut_eq, prepare_inMode, bind_assoc, runOn_bind]
  rcases (k.prepare request).runOn s with ⟨_ | work, u⟩
  · rfl
  · rfl

end Coordinator

-----------------------------------------------------------------------------------------
-- Refinement
-----------------------------------------------------------------------------------------

/-- The jobs that have come into the queue between two stores. -/
def Stores.newJobs (before after : Stores) : List Job :=
  after.queue.jobs.drop before.queue.jobs.length

theorem Stores.newJobs_of_append {before after : Stores} {jobs : List Job}
    (queue : after.queue.jobs = before.queue.jobs ++ jobs)
    : before.newJobs after = jobs := by
  rw [newJobs, queue, List.drop_left]

/-- (Refines s queued direct) says that a run from the stores s through the queue comes to the same
as a direct one: the results agree, the same multiples are stored, and the new jobs, replayed in
order, make of the cases what the direct run has made of them.
-/
structure Refines (s : Stores) (queued direct : Except RoundError RoundOutcome × Stores)
    : Prop where
  result : Agree RoundOutcome.Same queued.1 direct.1
  multiples : queued.2.multiples = direct.2.multiples
  replayed
    : ((s.newJobs queued.2).foldl Stores.replay s).cases.records = direct.2.cases.records

/-- (request.Apart s) says that a move is between multiples that share no case: the one that the
request carries, and the one that is stored under its target.
-/
def RoundRequest.Apart (s : Stores) (request : RoundRequest) : Prop :=
  ∀ target stored,
    request.target? = some target
    → s.multiples.records.get? target = some stored
    → stored.memberReferences.Disjoint request.multiple.memberReferences

/-- The work of such a request is between multiples that share no case. -/
theorem RoundRequest.Apart.work {request : RoundRequest} {s : Stores} {work : Work}
    (apart : request.Apart s) (prepared : work.Prepared request s)
    : work.Apart := by
  cases work with
  | reconcile r => trivial
  | move m =>
      have disjoint := apart _ _ prepared.named prepared.stored
      rw [← prepared.carried] at disjoint
      exact disjoint

/-- The cases of writes that are carried by jobs are cases of the jobs. -/
theorem Job.mem_cases_of_writes {jobs : List Job} {writes : List CaseWrite} {r : CaseReference}
    (carried : (jobs.flatMap Job.writes).Perm writes) (written : r ∈ writes.map CaseWrite.case)
    : ∃ job ∈ jobs, r ∈ job.cases := by
  obtain ⟨w, member, rfl⟩ := List.mem_map.mp written
  obtain ⟨job, listed, inside⟩ := List.mem_flatMap.mp (carried.mem_iff.mpr member)
  obtain ⟨case, addressed, rfl⟩ := List.mem_map.mp inside
  exact ⟨job, listed, addressed⟩

theorem Work.writes_inMode (mode : PropagationMode) (work : Work)
    : (work.inMode mode).writes = work.writes := by
  cases work <;> rfl

namespace Coordinator

variable {k : Coordinator} {s u : Stores} {request : RoundRequest} {work : Work}

/-- A request that is carried out in a mode. -/
def runIn (k : Coordinator) (mode : PropagationMode) (request : RoundRequest) (s : Stores)
    : Except RoundError RoundOutcome × Stores :=
  (k.carryOut (request.inMode mode)).runOn s

/-- Work that a request comes to is prepared in any mode. -/
theorem prepared_inMode (inMemory : s.InMemory)
    (prepares : (k.prepare request).Returns s work u) (mode : PropagationMode)
    : (work.inMode mode).Prepared (request.inMode mode) s := by
  have returns : (k.prepare (request.inMode mode)).Returns s (work.inMode mode) u := by
    rw [prepare_inMode]
    exact Round.returns_bind.mpr ⟨work, u, prepares, Round.returns_pure.mpr ⟨rfl, rfl⟩⟩
  exact (prepare_returns inMemory returns).2

/-- Work that is done through the queue comes to the same as when it is done through the pool, since
both ways come to the same completion.
-/
theorem perform_refines (inMemory : s.InMemory) (asked : s.Asked u)
    (prepared : ∀ mode, (work.inMode mode).Prepared (request.inMode mode) s)
    (apart : ∀ mode, (work.inMode mode).Apart) (free : s.queue.faults = [])
    (accepts
      : ∀ job ∈ s.newJobs ((k.perform (work.inMode .durableQueue)).runOn u).2,
          ∀ case ∈ job.cases, s.cases.Accepts case)
    : Refines s ((k.perform (work.inMode .durableQueue)).runOn u)
        ((k.perform (work.inMode .synchronousFanOut)).runOn u) := by
  have distinct := (prepared .durableQueue).nodup_writes (apart .durableQueue)
  have free : u.queue.faults = [] := by
    rw [asked.queue]
    exact free
  obtain ⟨n, jobs, t, ends, queued, writes⟩ := k.perform_of_free (prepared .durableQueue)
    (apart .durableQueue) (request.mode_inMode _) free
  have queue : s.newJobs ((k.perform (work.inMode .durableQueue)).runOn u).2 = jobs := by
    refine Stores.newJobs_of_append ?_
    rw [ends, (k.complete_keeps _ t ⟨rfl, rfl⟩).2, queued.jobs, asked.queue]
  rw [Work.writes_inMode] at distinct writes
  rw [queue] at accepts
  have accepts : ∀ r ∈ (work.inMode .synchronousFanOut).writes.map CaseWrite.case,
      u.cases.Accepts r := by
    intro r member
    rw [Work.writes_inMode] at member
    obtain ⟨job, listed, addressed⟩ := Job.mem_cases_of_writes writes member
    exact asked.accepts (accepts job listed r addressed)
  obtain ⟨v, ends', wrote, records⟩ := k.perform_of_accepts (prepared .synchronousFanOut)
    (apart .synchronousFanOut) (request.mode_inMode _) (asked.keyed inMemory.keyed) accepts
  have multiples : t.multiples = v.multiples := queued.multiples.trans wrote.multiples.symm
  obtain ⟨result, stored⟩ := k.complete_alike work multiples
  rw [Work.writes_inMode, asked.cases] at records
  refine ⟨?_, ?_, ?_⟩
  · rw [ends, ends']
    exact result
  · rw [ends, ends']
    exact stored
  · rw [queue, ends', (k.complete_keeps _ v ⟨rfl, rfl⟩).1,
      Stores.foldl_replay_records jobs inMemory.keyed, records,
      afterWrites_perm _ distinct writes]

/-- Carrying out a request through the queue comes to the same as carrying it out through the pool.
A move is between multiples that share no case, the queue takes its jobs, and the cases that are
written accept their writes.
-/
theorem carryOut_refines (k : Coordinator) (inMemory : s.InMemory) (apart : request.Apart s)
    (free : s.queue.faults = [])
    (accepts
      : ∀ job ∈ s.newJobs (k.runIn .durableQueue request s).2,
          ∀ case ∈ job.cases, s.cases.Accepts case)
    : Refines s (k.runIn .durableQueue request s) (k.runIn .synchronousFanOut request s) := by
  have asked := k.prepare_asked request s
  have modes := fun mode => k.carryOut_inMode request mode s
  unfold runIn at accepts ⊢
  rw [modes] at accepts
  rw [modes, modes]
  cases prepares : (k.prepare request).runOn s with
  | mk answer u =>
      rw [prepares] at asked accepts
      cases answer with
      | error e =>
          have queue : u.queue.jobs = s.queue.jobs ++ [] := by
            rw [asked.queue, List.append_nil]
          refine ⟨rfl, rfl, ?_⟩
          dsimp only
          rw [Stores.newJobs_of_append queue]
          exact asked.cases.symm
      | ok work =>
          have prepared := prepared_inMode inMemory prepares
          have apart : ∀ mode, (work.inMode mode).Apart := fun mode => by
            refine RoundRequest.Apart.work ?_ (prepared mode)
            cases request <;> exact apart
          exact perform_refines inMemory asked prepared apart free accepts

end Coordinator

/-- Two jobs are enqueued for two cases, and replaying them attaches both. -/
theorem Sample.refines_of_accepts
    : ((stores []).newJobs
          (coordinator.runIn .durableQueue (joining .durableQueue) (stores [])).2).length = 2
      ∧ Refines (stores []) (coordinator.runIn .durableQueue (joining .durableQueue) (stores []))
          (coordinator.runIn .synchronousFanOut (joining .durableQueue) (stores [])) := by
  have accepts : ∀ case ∈ [one, two], (stores []).cases.Accepts case := by
    intro case member
    simp only [List.mem_cons, List.not_mem_nil, or_false] at member
    rcases member with rfl | rfl
    · exact ⟨rfl, rfl, List.not_mem_nil⟩
    · exact ⟨rfl, rfl, List.not_mem_nil⟩
  have cases : ((stores []).newJobs
        (coordinator.runIn .durableQueue (joining .durableQueue) (stores [])).2).flatMap Job.cases
      = [one, two] := by
    decide +kernel
  refine ⟨by decide +kernel, ?_⟩
  refine coordinator.carryOut_refines (reachable_stores []).inMemory ?_ rfl ?_
  · intro target _ moves
    cases moves
  · intro job listed case addressed
    refine accepts case ?_
    rw [← cases]
    exact List.mem_flatMap.mpr ⟨job, listed, addressed⟩

end CaseGrouping
