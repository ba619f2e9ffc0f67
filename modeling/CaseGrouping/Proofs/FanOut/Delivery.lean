import CaseGrouping.Proofs.FanOut.Effects
import CaseGrouping.Round.Propagation
import Mathlib.Data.List.Nodup

/-! Delivery of writes to different cases: each is either applied to its case or refused without a
trace, and the report says which. The order in which the pool makes its moves does not matter.
-/

namespace CaseGrouping

/-- (Delivered fault writes before after) says what writes have made of the stored cases. Those to
cases without a fault are applied, and all other cases are as they were.
-/
structure Delivered (fault : CaseReference → Option Failure) (writes : List CaseWrite)
    (before after : Register CaseReference SingleCase)
    : Prop where
  named : ∀ {r f}, fault r = some f → f.case = r ∧ r ∈ writes.map CaseWrite.case
  applied
    : ∀ {w},
        w ∈ writes
        → fault w.case = none
        → ∃ c, before.get? w.case = some c ∧ after.get? w.case = some (w.change.apply c)
  refused : ∀ {r f}, fault r = some f → after.get? r = before.get? r
  untouched : ∀ {r}, r ∉ writes.map CaseWrite.case → after.get? r = before.get? r

/-- The fault of a case that only fails because it is not stored. -/
def absence? (cases : Register CaseReference SingleCase) (r : CaseReference) : Option Failure :=
  if (cases.get? r).isSome then none else some (absence r)

/-- The propagation of writes of which some meet a fault. -/
def Propagation.ofFaults (fault : CaseReference → Option Failure) (writes : List CaseWrite)
    : Propagation where
  written := (writes.map CaseWrite.case).filter fun r => (fault r).isNone
  failures := (writes.map CaseWrite.case).filterMap fault

-----------------------------------------------------------------------------------------
-- Finished tasks
-----------------------------------------------------------------------------------------

/-- The failure of a finished task. -/
def Task.failure? (t : Task) : Option Failure :=
  match t.phase with
  | .finished (.error failure) => some failure
  | _ => none

theorem Task.phase_of_failure? {t : Task} {failure : Failure} (failed : t.failure? = some failure)
    : t.phase = .finished (.error failure) := by
  unfold failure? at failed
  split at failed
  next phase =>
    cases failed
    exact phase
  · cases failed

/-- A task that has an outcome is finished, with the case it has written or with a failure. -/
theorem Task.phase_of_outcome? {t : Task} (finished : (t.outcome?).isSome)
    : (∃ c, t.phase = .finished (.ok c)) ∨ ∃ failure, t.phase = .finished (.error failure) := by
  cases phase : t.phase with
  | queued => simp [outcome?, phase] at finished
  | writing due reply => simp [outcome?, phase] at finished
  | resting due => simp [outcome?, phase] at finished
  | finished outcome =>
      cases outcome with
      | ok c => exact .inl ⟨c, rfl⟩
      | error failure => exact .inr ⟨failure, rfl⟩

namespace Pool

/-- The failure of the task that writes to a case. -/
def fault (p : Pool) (r : CaseReference) : Option Failure :=
  (p.tasks.find? fun t => t.write.case = r).bind Task.failure?

/-- A fault of a case is the failure of its task, as there is only one. -/
theorem Faithful.fault_eq {before : Stores} {p : Pool} (faithful : p.Faithful before)
    {t : Task} (member : t ∈ p.tasks)
    : p.fault t.write.case = t.failure? := by
  have found : p.tasks.find? (fun u => u.write.case = t.write.case) = some t := by
    cases first : p.tasks.find? (fun u => decide (u.write.case = t.write.case)) with
    | none => simpa using List.find?_eq_none.mp first t member
    | some u =>
        have same : u.write.case = t.write.case := by simpa using List.find?_some first
        rw [List.inj_on_of_nodup_map faithful.distinct (List.mem_of_find?_eq_some first)
          member same]
  rw [fault, found, Option.bind_some]

/-- A fault of a case is what the task that writes to it has failed with. -/
theorem exists_of_fault {p : Pool} {r : CaseReference} {failure : Failure}
    (failed : p.fault r = some failure)
    : ∃ t ∈ p.tasks, t.write.case = r ∧ t.phase = .finished (.error failure) := by
  obtain ⟨t, found, failed⟩ := Option.bind_eq_some_iff.mp failed
  exact ⟨t, List.mem_of_find?_eq_some found, by simpa using List.find?_some found,
    Task.phase_of_failure? failed⟩

/-- What a task has done to its case can be told from its phase. -/
theorem Faithful.effect_of_mem {before : Stores} {p : Pool} (faithful : p.Faithful before)
    {t : Task} (member : t ∈ p.tasks)
    : t.phase.Effect t.write (before.cases.records.get? t.write.case)
        (p.stores.cases.records.get? t.write.case) := by
  obtain ⟨_, found⟩ := List.mem_iff_getElem?.mp member
  exact faithful.effect found

/-- When all tasks are finished, the writes have been delivered with the faults of the tasks. -/
theorem Faithful.delivered {before : Stores} {p : Pool} (faithful : p.Faithful before)
    (finished : ∀ t ∈ p.tasks, (t.outcome?).isSome)
    : Delivered p.fault (p.tasks.map Task.write) before.cases.records
        p.stores.cases.records := by
  constructor
  case named =>
    intro r f failed
    obtain ⟨t, member, rfl, phase⟩ := exists_of_fault failed
    have effect := faithful.effect_of_mem member
    rw [phase] at effect
    exact ⟨effect.1, by simpa using ⟨t, member, rfl⟩⟩
  case applied =>
    intro w member free
    obtain ⟨t, inside, rfl⟩ := List.mem_map.mp member
    rw [faithful.fault_eq inside] at free
    have effect := faithful.effect_of_mem inside
    obtain ⟨c, phase⟩ | ⟨failure, phase⟩ := Task.phase_of_outcome? (finished t inside)
    · rw [phase] at effect
      obtain ⟨changed, now⟩ := effect
      obtain ⟨c₀, stored, rfl⟩ := Option.map_eq_some_iff.mp changed
      exact ⟨c₀, stored, now⟩
    · simp [Task.failure?, phase] at free
  case refused =>
    intro r f failed
    obtain ⟨t, member, rfl, phase⟩ := exists_of_fault failed
    have effect := faithful.effect_of_mem member
    rw [phase] at effect
    exact effect.2
  case untouched =>
    intro r absent
    refine faithful.untouched fun member => absent ?_
    simpa using member

/-- Once it is finished, the task of an unhindered case has failed exactly if the case is not
stored.
-/
theorem Smooth.fault_eq {before : Stores} {p : Pool} (smooth : p.Smooth before)
    (faithful : p.Faithful before) {t : Task} (member : t ∈ p.tasks)
    (finished : (t.outcome?).isSome) (unhindered : before.cases.Unhindered t.write.case)
    : p.fault t.write.case = absence? before.cases.records t.write.case := by
  have smooth := smooth t member unhindered
  rw [faithful.fault_eq member, absence?]
  obtain ⟨c, phase⟩ | ⟨failure, phase⟩ := Task.phase_of_outcome? finished
  · rw [phase] at smooth
    rw [if_pos (show _ = true from smooth), Task.failure?, phase]
  · rw [phase] at smooth
    obtain ⟨rfl, absent⟩ := smooth
    rw [if_neg absent, Task.failure?, phase]

end Pool

/-- A report lists the finished tasks by whether they failed, by induction on the tasks. -/
theorem FanOutReport.ofPool_eq {p : Pool} {fault : CaseReference → Option Failure}
    (told
      : ∀ t ∈ p.tasks,
          fault t.write.case = t.failure?
          ∧ ((∃ c, t.phase = .finished (.ok c) ∧ c.reference = t.write.case)
            ∨ ∃ failure, t.phase = .finished (.error failure)))
    : (FanOutReport.ofPool p).appliedReferences
          = (Propagation.ofFaults fault (p.tasks.map Task.write)).written
      ∧ (FanOutReport.ofPool p).failures
          = (Propagation.ofFaults fault (p.tasks.map Task.write)).failures := by
  simp only [ofPool, appliedReferences, Propagation.ofFaults]
  generalize p.tasks = tasks at told
  induction tasks with
  | nil => exact ⟨rfl, rfl⟩
  | cons t rest ih =>
      obtain ⟨applied, failures⟩ := ih fun u member => told u (by simp [member])
      obtain ⟨same, ⟨c, phase, reference⟩ | ⟨failure, phase⟩⟩ := told t (by simp)
      · have outcome : t.outcome? = some (.ok c) := by simp [Task.outcome?, phase]
        have free : fault t.write.case = none := by simp [same, Task.failure?, phase]
        have kept : Except.toOption (.ok c : Except Failure SingleCase) = some c := rfl
        simp only [List.filterMap_cons, List.map_cons, List.filter_cons, outcome, free, kept,
          applied, failures, reference, Option.isNone_none, if_true, and_self]
      · have outcome : t.outcome? = some (.error failure) := by simp [Task.outcome?, phase]
        have failed : fault t.write.case = some failure := by
          simp [same, Task.failure?, phase]
        have dropped : Except.toOption (.error failure : Except Failure SingleCase) = none := rfl
        simp only [List.filterMap_cons, List.map_cons, List.filter_cons, outcome, failed, dropped,
          applied, failures, Option.isNone_some, Bool.false_eq_true, if_false, and_self]

-----------------------------------------------------------------------------------------
-- Runs of the pool
-----------------------------------------------------------------------------------------

/-- Whatever is sent through the pool, nothing but writing takes place. -/
theorem FanOut.execute_wrote (f : FanOut) (writes : List CaseWrite) (s : Stores)
    : s.Wrote (f.execute writes s).2 :=
  Pool.run_induction (P := fun p => s.Wrote p.stores)
    (fun _ move h => h.trans move.wrote) _ (.refl s)

/-- Sending writes to different cases through the pool delivers them, and the report agrees with
what has become of the cases. Unhindered cases fail only if they are not stored.
-/
theorem FanOut.execute_delivered (f : FanOut) {writes : List CaseWrite} {s : Stores}
    (distinct : (writes.map CaseWrite.case).Nodup) (keyed : s.cases.Keyed)
    : ∃ fault,
        (f.execute writes s).1.appliedReferences
            = (Propagation.ofFaults fault writes).written
        ∧ (f.execute writes s).1.failures = (Propagation.ofFaults fault writes).failures
        ∧ Delivered fault writes s.cases.records (f.execute writes s).2.cases.records
        ∧ ∀ r ∈ writes.map CaseWrite.case,
            s.cases.Unhindered r → fault r = absence? s.cases.records r := by
  let start := Pool.ofWrites f writes s
  let finish := start.run f (start.steps f)
  have finished : ∀ t ∈ finish.tasks, (t.outcome?).isSome :=
    Pool.run_ofWrites_finishes f writes s
  have same : finish.tasks.map Task.write = writes :=
    Pool.run_induction (P := fun p => p.tasks.map Task.write = writes)
      (fun found move h => (move.writes found).trans h) _ (Pool.ofWrites_writes f writes s)
  have wrote : s.Wrote finish.stores := f.execute_wrote writes s
  have faithful : finish.Faithful s :=
    Pool.run_induction (P := Pool.Faithful s) (fun found move => move.faithful found) _
      (Pool.faithful_ofWrites f s distinct)
  have smooth : finish.Smooth s :=
    (Pool.run_induction (P := fun p => s.Wrote p.stores ∧ p.Smooth s)
      (fun found move h => ⟨h.1.trans move.wrote, move.smooth found h.1 h.2⟩) _
      ⟨.refl s, Pool.smooth_ofWrites f writes s⟩).2
  have delivered := faithful.delivered finished
  rw [same] at delivered
  have told : ∀ t ∈ finish.tasks,
      finish.fault t.write.case = t.failure?
      ∧ ((∃ c, t.phase = .finished (.ok c) ∧ c.reference = t.write.case)
        ∨ ∃ failure, t.phase = .finished (.error failure)) := by
    intro t member
    refine ⟨faithful.fault_eq member, ?_⟩
    have effect := faithful.effect_of_mem member
    obtain ⟨c, phase⟩ | failed := Task.phase_of_outcome? (finished t member)
    · rw [phase] at effect
      exact .inl ⟨c, phase, wrote.keyed keyed _ _ effect.2⟩
    · exact .inr failed
  obtain ⟨applied, failures⟩ := FanOutReport.ofPool_eq told
  rw [same] at applied failures
  refine ⟨finish.fault, applied, failures, delivered, fun r written unhindered => ?_⟩
  rw [← same, List.map_map] at written
  obtain ⟨t, member, rfl⟩ := List.mem_map.mp written
  exact smooth.fault_eq faithful member (finished t member) unhindered

end CaseGrouping
