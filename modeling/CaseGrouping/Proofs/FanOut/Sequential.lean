import CaseGrouping.Proofs.FanOut.Attempts
import CaseGrouping.Proofs.Round.Reachable

/-! The pool against one write after another. What becomes of a write depends on nothing but what
the store holds for its case, so as long as the writes are to different cases the pool does to the
cases, and reports, what taking the writes in turn does, in whatever order the tasks move.
-/

namespace CaseGrouping

namespace CaseStore

-----------------------------------------------------------------------------------------
-- One write after another
-----------------------------------------------------------------------------------------

/-- Sends a write until a reply comes that cannot get better, with a number of attempts after the
first one.
-/
def persist : Nat → CaseStore → CaseWrite → Except Failure SingleCase × CaseStore
  | 0, s, w =>
      let (reply, s) := s.submit w
      (reply.outcome w, s)
  | further + 1, s, w =>
      let (reply, s) := s.submit w
      if reply.mayPass then persist further s w else (reply.outcome w, s)

/-- After a reply that may pass the write is sent again, while attempts are left. -/
theorem persist_eq (further : Nat) (s : CaseStore) (w : CaseWrite)
    : s.persist further w
      = if (s.submit w).1.mayPass && 0 < further then
          (s.submit w).2.persist (further - 1) w
        else ((s.submit w).1.outcome w, (s.submit w).2) := by
  cases further with
  | zero => simp [persist]
  | succ further => simp [persist]

/-- Two stores hold the same for a case: its entry, the fault that its writes meet, and whether
they bring down their worker.
-/
structure AgreeOn (r : CaseReference) (s s' : CaseStore) : Prop where
  record : s.records.get? r = s'.records.get? r
  fault : s.writeFaults.get? r = s'.writeFaults.get? r
  crashing : r ∈ s.crashing ↔ r ∈ s'.crashing

theorem AgreeOn.refl (r : CaseReference) (s : CaseStore) : AgreeOn r s s :=
  ⟨rfl, rfl, .rfl⟩

theorem AgreeOn.symm {r : CaseReference} {s s' : CaseStore} (agree : AgreeOn r s s')
    : AgreeOn r s' s :=
  ⟨agree.record.symm, agree.fault.symm, agree.crashing.symm⟩

theorem AgreeOn.trans {r : CaseReference} {s s' s'' : CaseStore} (first : AgreeOn r s s')
    (next : AgreeOn r s' s'')
    : AgreeOn r s s'' :=
  ⟨first.record.trans next.record, first.fault.trans next.fault,
    first.crashing.trans next.crashing⟩

/-- Two results are the same as far as a case is concerned. -/
structure SameFor {α : Type} (r : CaseReference) (x y : α × CaseStore) : Prop where
  result : x.1 = y.1
  store : AgreeOn r x.2 y.2

theorem SameFor.trans {α : Type} {r : CaseReference} {x y z : α × CaseStore}
    (first : SameFor r x y) (next : SameFor r y z)
    : SameFor r x z :=
  ⟨first.result.trans next.result, first.store.trans next.store⟩

variable {s s' : CaseStore} {w : CaseWrite} {r : CaseReference}

/-- What a write does depends on what the store holds for its case. -/
theorem AgreeOn.submit (agree : AgreeOn w.case s s')
    : SameFor w.case (s.submit w) (s'.submit w) := by
  unfold CaseStore.submit
  by_cases crashing : w.case ∈ s.crashing
  · rw [if_pos crashing, if_pos (agree.crashing.mp crashing)]
    exact ⟨rfl, agree⟩
  · rw [if_neg crashing, if_neg (crashing ∘ agree.crashing.mpr)]
    simp only [write, ← agree.fault, ← agree.record]
    cases (s.writeFaults.get? w.case).bind WriteFault.next? with
    | some met =>
        refine ⟨rfl, agree.record, ?_, agree.crashing⟩
        simp only [failWrites, Register.get?_insert_self]
    | none =>
        cases s.records.get? w.case with
        | none => exact ⟨rfl, agree.record, agree.fault, agree.crashing⟩
        | some c =>
            refine ⟨rfl, ?_, agree.fault, agree.crashing⟩
            simp only [Register.get?_insert_self]

theorem submit_other (ne : r ≠ w.case) : AgreeOn r (s.submit w).2 s := by
  have written := submit_submitted s w
  refine ⟨written.other ne, ?_, by rw [written.settings.1]⟩
  generalize (s.submit w).1 = reply, (s.submit w).2 = s' at written
  cases written with
  | crash _ => rfl
  | fault _ _ => exact Register.get?_insert_of_ne _ _ ne
  | absent _ _ _ => rfl
  | written _ _ _ => rfl

/-- So does what a repeated write does, by induction on the further attempts. -/
theorem AgreeOn.persist (agree : AgreeOn w.case s s') (further : Nat)
    : SameFor w.case (s.persist further w) (s'.persist further w) := by
  induction further generalizing s s' with
  | zero =>
      have same := agree.submit
      exact ⟨congrArg (WriteReply.outcome w) same.result, same.store⟩
  | succ further ih =>
      have same := agree.submit
      simp only [CaseStore.persist, same.result]
      split
      · exact ih same.store
      · exact ⟨rfl, same.store⟩

theorem persist_other (ne : r ≠ w.case) (further : Nat)
    : AgreeOn r (s.persist further w).2 s := by
  induction further generalizing s with
  | zero => exact submit_other ne
  | succ further ih =>
      simp only [persist]
      split
      · exact ih.trans (submit_other ne)
      · exact submit_other ne

-----------------------------------------------------------------------------------------
-- Writes that have nothing to do with one another
-----------------------------------------------------------------------------------------

/-- (Apart further writes before x) says that the results x of writes to a store are those that
each of them has by itself.
-/
structure Apart (further : Nat) (writes : List CaseWrite) (before : CaseStore)
    (x : List (Except Failure SingleCase) × CaseStore)
    : Prop where
  results : x.1 = writes.map fun w => (before.persist further w).1
  written : ∀ w ∈ writes, AgreeOn w.case x.2 (before.persist further w).2
  untouched : ∀ r ∉ writes.map CaseWrite.case, AgreeOn r x.2 before

/-- What writes have come to by themselves is settled, the stores included. -/
theorem Apart.unique {further : Nat} {writes : List CaseWrite} {before : CaseStore}
    {x y : List (Except Failure SingleCase) × CaseStore} (first : Apart further writes before x)
    (second : Apart further writes before y)
    : x.1 = y.1 ∧ x.2.records = y.2.records ∧ x.2.writeFaults = y.2.writeFaults := by
  have agree : ∀ r, AgreeOn r x.2 y.2 := by
    intro r
    by_cases touched : r ∈ writes.map CaseWrite.case
    · obtain ⟨w, member, rfl⟩ := List.mem_map.mp touched
      exact (first.written w member).trans (second.written w member).symm
    · exact (first.untouched r touched).trans (second.untouched r touched).symm
  exact ⟨first.results.trans second.results.symm, Register.ext_get? fun r => (agree r).record,
    Register.ext_get? fun r => (agree r).fault⟩

/-- Writes to different cases have nothing to do with one another when they are taken in turn, by
induction on them.
-/
theorem apart_inTurn (further : Nat) {writes : List CaseWrite} (s : CaseStore)
    (distinct : (writes.map CaseWrite.case).Nodup)
    : Apart further writes s (s.inTurn (persist further) writes) := by
  induction writes generalizing s with
  | nil => exact ⟨rfl, by simp, fun r _ => .refl r s⟩
  | cons first rest ih =>
      rw [List.map_cons, List.nodup_cons] at distinct
      obtain ⟨new, distinct⟩ := distinct
      have later := ih (s.persist further first).2 distinct
      -- What the first write does is nothing to the others.
      have apart : ∀ w ∈ rest,
          SameFor w.case ((s.persist further first).2.persist further w) (s.persist further w) := by
        refine fun w member => (persist_other ?_ further).persist further
        exact fun same => new (same ▸ List.mem_map_of_mem member)
      refine ⟨?_, ?_, ?_⟩
      · refine congrArg (List.cons _) (later.results.trans ?_)
        exact List.map_congr_left fun w member => (apart w member).result
      · intro w member
        rcases List.mem_cons.mp member with rfl | member
        · exact later.untouched _ new
        · exact (later.written w member).trans (apart w member).store
      · intro r absent
        rw [List.map_cons, List.mem_cons, not_or] at absent
        exact (later.untouched r absent.2).trans (persist_other absent.1 further)

end CaseStore

-----------------------------------------------------------------------------------------
-- What the tasks come to
-----------------------------------------------------------------------------------------

/-- What a task comes to when it is the only one to move from now on. -/
def Task.onward (f : FanOut) (t : Task) (s : CaseStore) : Except Failure SingleCase × CaseStore :=
  match t.phase with
  | .queued => s.persist (f.retry.maxAttempts - t.attempt) t.write
  | .writing _ reply =>
      if reply.mayPass && t.attempt < f.retry.maxAttempts then
        s.persist (f.retry.maxAttempts - (t.attempt + 1)) t.write
      else (reply.outcome t.write, s)
  | .resting _ => s.persist (f.retry.maxAttempts - (t.attempt + 1)) t.write
  | .finished outcome => (outcome, s)

/-- It depends on what the store holds for the case of the task. -/
theorem Task.onward_agree {f : FanOut} {t : Task} {s s' : CaseStore}
    (agree : s.AgreeOn t.write.case s')
    : CaseStore.SameFor t.write.case (t.onward f s) (t.onward f s') := by
  unfold onward
  split
  · exact agree.persist _
  · split
    · exact agree.persist _
    · exact ⟨rfl, agree⟩
  · exact agree.persist _
  · exact ⟨rfl, agree⟩

namespace Pool

/-- Every task comes to what its write comes to by itself, and cases without a task are as they
were.
-/
structure Apart (f : FanOut) (before : CaseStore) (p : Pool) : Prop where
  onward
    : ∀ {i : Nat} {t : Task},
        p.tasks[i]? = some t
        → CaseStore.SameFor t.write.case (t.onward f p.stores.cases)
            (before.persist (f.retry.maxAttempts - 1) t.write)
  untouched
    : ∀ {r : CaseReference},
        r ∉ p.tasks.map (·.write.case) → CaseStore.AgreeOn r p.stores.cases before

theorem apart_ofWrites (f : FanOut) (writes : List CaseWrite) (stores : Stores)
    : (ofWrites f writes stores).Apart f stores.cases where
  onward := by
    intro i t found
    obtain ⟨_, _, rfl⟩ := List.mem_map.mp (List.mem_of_getElem? found)
    exact ⟨rfl, .refl _ _⟩
  untouched := fun _ => .refl _ _

/-- A task that comes to the same may replace the one at its place, as long as what the store
holds for the other cases is left alone.
-/
theorem Apart.replace {f : FanOut} {before : Stores} {p q : Pool}
    (apart : p.Apart f before.cases) (faithful : p.Faithful before) {i : Nat} {t t' : Task}
    (found : p.tasks[i]? = some t) (tasks : q.tasks = p.tasks.set i t')
    (same : t'.write = t.write)
    (onward : t'.onward f q.stores.cases = t.onward f p.stores.cases)
    (others : ∀ r ≠ t.write.case, CaseStore.AgreeOn r q.stores.cases p.stores.cases)
    : q.Apart f before.cases := by
  obtain ⟨inside, _⟩ := List.getElem?_eq_some_iff.mp found
  constructor
  case onward =>
    intro j u at_j
    rw [tasks, List.getElem?_set] at at_j
    split at at_j
    next here =>
      obtain rfl : t' = u := by simpa [inside] using at_j
      rw [onward, same]
      exact apart.onward found
    next elsewhere =>
      have agree := others _ (faithful.case_ne found at_j elsewhere)
      exact (Task.onward_agree agree).trans (apart.onward at_j)
  case untouched =>
    intro r absent
    have absent : r ∉ p.tasks.map (·.write.case) := by
      have writes := congrArg (List.map CaseWrite.case) (writes_set found same)
      rwa [tasks, show (p.tasks.set i t').map (·.write.case) = p.tasks.map (·.write.case) by
        simpa only [List.map_map] using! writes] at absent
    refine (others r ?_).trans (apart.untouched absent)
    rintro rfl
    exact absent (List.mem_map_of_mem (f := fun t : Task => t.write.case)
      (List.mem_of_getElem? found))

/-- No move changes what a task comes to: a start does what the next attempt does, and the others
only take it there.
-/
theorem Move.apart {f : FanOut} {before : Stores} {p q : Pool} {i : Nat} {t : Task}
    (found : p.tasks[i]? = some t) (move : Move f p i t q) (faithful : p.Faithful before)
    (apart : p.Apart f before.cases)
    : q.Apart f before.cases := by
  cases move with
  | start queued permit =>
      obtain ⟨due, tasks⟩ := start_tasks f p i t
      refine apart.replace faithful found tasks rfl ?_ fun r ne => CaseStore.submit_other ne
      have sent :=
        CaseStore.persist_eq (f.retry.maxAttempts - t.attempt) p.stores.cases t.write
      simp only [Nat.sub_pos_iff_lt, Nat.sub_sub] at sent
      simp only [Task.onward, queued]
      exact sent.symm
  | @settle due reply writing =>
      refine apart.replace faithful found rfl rfl ?_ fun r _ => .refl r _
      have phase := phaseAfter_eq f t reply (p.reach due).stores.clock
      by_cases again : (reply.mayPass && decide (t.attempt < f.retry.maxAttempts)) = true
      · rw [if_pos again] at phase
        simp only [Task.onward, writing, phase, again, if_true]
        rfl
      · rw [if_neg again] at phase
        simp only [Task.onward, writing, phase, again, if_false, Bool.false_eq_true]
        rfl
  | wake resting =>
      refine apart.replace faithful found rfl rfl ?_ fun r _ => .refl r _
      simp only [Task.onward, resting]
      rfl

/-- When all tasks are finished, the pool has done to the cases what the writes do by themselves,
and reports it.
-/
theorem Apart.finished {f : FanOut} {before : CaseStore} {p : Pool} (apart : p.Apart f before)
    (finished : ∀ t ∈ p.tasks, (t.outcome?).isSome)
    : before.Apart (f.retry.maxAttempts - 1) (p.tasks.map Task.write)
        (p.tasks.filterMap Task.outcome?, p.stores.cases) := by
  have outcome : ∀ t ∈ p.tasks,
      t.outcome? = some (before.persist (f.retry.maxAttempts - 1) t.write).1
      ∧ p.stores.cases.AgreeOn t.write.case
          (before.persist (f.retry.maxAttempts - 1) t.write).2 := by
    intro t member
    obtain ⟨i, found⟩ := List.mem_iff_getElem?.mp member
    have same := apart.onward found
    have finished := finished t member
    cases phase : t.phase <;> simp [Task.outcome?, phase] at finished
    simp only [Task.onward, phase] at same
    exact ⟨by rw [Task.outcome?, phase, ← same.result], same.store⟩
  refine ⟨?_, ?_, fun r absent => apart.untouched (by simpa using! absent)⟩
  · apply (List.map_inj_right fun _ _ => Option.some.inj).mp
    rw [outcomes_of_finished finished, List.map_map, List.map_map]
    exact List.map_congr_left fun t member => (outcome t member).1
  · intro w member
    obtain ⟨t, inside, rfl⟩ := List.mem_map.mp member
    exact (outcome t inside).2

-----------------------------------------------------------------------------------------
-- Schedules
-----------------------------------------------------------------------------------------

/-- What is known of the pool at any moment after the start with writes to different cases. -/
structure Underway (f : FanOut) (writes : List CaseWrite) (before : Stores) (p : Pool) : Prop where
  writes : p.tasks.map Task.write = writes
  permits : p.Permits f
  faithful : p.Faithful before
  apart : p.Apart f before.cases

theorem underway_ofWrites (f : FanOut) {writes : List CaseWrite} (stores : Stores)
    (distinct : (writes.map CaseWrite.case).Nodup)
    : (ofWrites f writes stores).Underway f writes stores :=
  ⟨ofWrites_writes f writes stores, permits_ofWrites f writes stores,
    faithful_ofWrites f stores distinct, apart_ofWrites f writes stores⟩

theorem Move.underway {f : FanOut} {writes : List CaseWrite} {before : Stores} {p q : Pool}
    {i : Nat} {t : Task} (found : p.tasks[i]? = some t) (move : Move f p i t q)
    (underway : p.Underway f writes before)
    : q.Underway f writes before := by
  obtain ⟨_, turn⟩ := move.turn
  exact ⟨(move.writes found).trans underway.writes, turn.keeps_permits found underway.permits,
    move.faithful found underway.faithful, move.apart found underway.faithful underway.apart⟩

/-- A schedule picks a task that can move time and again, by induction on the schedule. -/
theorem Underway.scheduled {f : FanOut} {writes : List CaseWrite} {before : Stores}
    {schedule : List Nat} {p q : Pool} (underway : p.Underway f writes before)
    (run : schedule.foldlM (advance? f) p = some q)
    : q.Underway f writes before := by
  induction schedule generalizing p with
  | nil =>
      cases run
      exact underway
  | cons i rest ih =>
      rw [List.foldlM_cons] at run
      obtain ⟨_, advanced, run⟩ := Option.bind_eq_some_iff.mp run
      obtain ⟨t, found, move⟩ := move_of_advance? advanced
      exact ih (move.underway found underway) run

end Pool

/-- Takes writes one after another, each with as many attempts as the pool allows. -/
def FanOut.executeInTurn (f : FanOut) (writes : List CaseWrite) (s : CaseStore)
    : FanOutReport × CaseStore :=
  let (outcomes, s) := s.inTurn (CaseStore.persist (f.retry.maxAttempts - 1)) writes
  (.ofOutcomes outcomes, s)

/-- Finished tasks have done and report what their writes do when they are taken in turn. -/
theorem Pool.Underway.in_turn {f : FanOut} {writes : List CaseWrite} {before : Stores} {p : Pool}
    (underway : p.Underway f writes before) (finished : ∀ t ∈ p.tasks, (t.outcome?).isSome)
    (distinct : (writes.map CaseWrite.case).Nodup)
    : FanOutReport.ofPool p = (f.executeInTurn writes before.cases).1
      ∧ p.stores.cases.records = (f.executeInTurn writes before.cases).2.records
      ∧ p.stores.cases.writeFaults = (f.executeInTurn writes before.cases).2.writeFaults := by
  have pooled := underway.apart.finished finished
  rw [underway.writes] at pooled
  obtain ⟨results, same⟩ := pooled.unique (CaseStore.apart_inTurn _ before.cases distinct)
  exact ⟨congrArg FanOutReport.ofOutcomes results, same⟩

/-- Sending writes to different cases through the pool does to the cases, and reports, what it does
to take the writes one after another. The number of workers, the latency and the pauses do not
matter, nor does the order in which the tasks move: the same holds for every schedule that goes on
until no task can move.
-/
theorem FanOut.execute_sequential (f : FanOut) {writes : List CaseWrite} (stores : Stores)
    (distinct : (writes.map CaseWrite.case).Nodup)
    : ((f.execute writes stores).1 = (f.executeInTurn writes stores.cases).1
        ∧ (f.execute writes stores).2.cases.records
          = (f.executeInTurn writes stores.cases).2.records
        ∧ (f.execute writes stores).2.cases.writeFaults
          = (f.executeInTurn writes stores.cases).2.writeFaults)
      ∧ ∀ (schedule : List Nat) p,
          schedule.foldlM (Pool.advance? f) (Pool.ofWrites f writes stores) = some p
          → (∀ i, p.advance? f i = none)
          → FanOutReport.ofPool p = (f.executeInTurn writes stores.cases).1
            ∧ p.stores.cases.records = (f.executeInTurn writes stores.cases).2.records
            ∧ p.stores.cases.writeFaults
              = (f.executeInTurn writes stores.cases).2.writeFaults := by
  have start := Pool.underway_ofWrites f stores distinct
  constructor
  · have finish := Pool.run_induction (P := Pool.Underway f writes stores)
      (fun found => Pool.Move.underway found) (Pool.steps f (Pool.ofWrites f writes stores)) start
    exact finish.in_turn (Pool.run_ofWrites_finishes f writes stores) distinct
  · intro schedule p run stuck
    have finish := start.scheduled run
    exact finish.in_turn (Pool.finished_of_stuck finish.permits stuck) distinct

namespace Sample

/-- The first write to the first case meets a fault that passes; a write to the second one brings
down its worker.
-/
def faltering : Stores where
  cases := (stores [two]).cases.failWrites one ⟨.timeout 5, some 1⟩
  latency := 5

/-- The leads of both cases are set. -/
def leading : List CaseWrite :=
  [⟨one, .setLead true⟩, ⟨two, .setLead true⟩]

/-- The first write is applied at its second attempt. -/
theorem faltering_in_turn
    : (coordinator.fanOut.execute leading faltering).1.appliedReferences = [one]
      ∧ (coordinator.fanOut.execute leading faltering).1.failures = [⟨two, Pool.crashReason⟩]
      ∧ (coordinator.fanOut.execute leading faltering).2.cases.records
        = (coordinator.fanOut.executeInTurn leading faltering.cases).2.records := by
  have distinct : (leading.map CaseWrite.case).Nodup := by decide
  obtain ⟨⟨report, records, _⟩, _⟩ := coordinator.fanOut.execute_sequential faltering distinct
  rw [report]
  exact ⟨by decide +kernel, by decide +kernel, records⟩

end Sample

end CaseGrouping
