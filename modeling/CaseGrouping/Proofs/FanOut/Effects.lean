import CaseGrouping.Proofs.FanOut.Moves
import CaseGrouping.Proofs.Store.Cases

/-! What the pool does to the stored cases. As long as its writes are to different cases, the
phase of each task tells what has become of its case, in whatever order the tasks move.
-/

namespace CaseGrouping

-----------------------------------------------------------------------------------------
-- What writing leaves alone
-----------------------------------------------------------------------------------------

/-- Between the stores before and after, nothing but writes to cases took place. -/
structure Stores.Wrote (before after : Stores) : Prop where
  multiples : after.multiples = before.multiples
  queue : after.queue = before.queue
  retrieveFaults : after.cases.retrieveFaults = before.cases.retrieveFaults
  searchFault : after.cases.searchFault = before.cases.searchFault
  searchAnswer : after.cases.searchAnswer = before.cases.searchAnswer
  keyed : before.cases.Keyed → after.cases.Keyed
  unhindered : ∀ r, before.cases.Unhindered r → after.cases.Unhindered r
  stored : ∀ r, (after.cases.records.get? r).isSome = (before.cases.records.get? r).isSome

namespace Stores.Wrote

theorem refl (s : Stores) : s.Wrote s :=
  ⟨rfl, rfl, rfl, rfl, rfl, id, fun _ => id, fun _ => rfl⟩

theorem trans {s t u : Stores} (first : s.Wrote t) (next : t.Wrote u) : s.Wrote u :=
  ⟨next.multiples.trans first.multiples, next.queue.trans first.queue,
    next.retrieveFaults.trans first.retrieveFaults, next.searchFault.trans first.searchFault,
    next.searchAnswer.trans first.searchAnswer, next.keyed ∘ first.keyed,
    fun r => next.unhindered r ∘ first.unhindered r,
    fun r => (next.stored r).trans (first.stored r)⟩

theorem accepts {s t : Stores} (wrote : s.Wrote t) {r : CaseReference}
    (accepts : s.cases.Accepts r)
    : t.cases.Accepts r := by
  have unhindered := wrote.unhindered r accepts.unhindered
  exact ⟨(wrote.stored r).trans accepts.stored, unhindered.free, unhindered.steady⟩

/-- One write is writing; its effect on the cases is that of the store of cases. -/
theorem submit (caseType : String) (w : CaseWrite) (s : Stores)
    : s.Wrote (Stores.submit caseType w s).2 := by
  have written := CaseStore.submit_submitted s.cases w
  obtain ⟨_, retrieveFaults, searchFault, searchAnswer⟩ := written.settings
  exact ⟨rfl, rfl, retrieveFaults, searchFault, searchAnswer, written.keyed,
    fun _ => written.unhindered, written.stored⟩

theorem passTime (s : Stores) (time : Nat) : s.Wrote { s with clock := max s.clock time } :=
  ⟨rfl, rfl, rfl, rfl, rfl, id, fun _ => id, fun _ => rfl⟩

end Stores.Wrote

-----------------------------------------------------------------------------------------
-- Phases and the entries of their cases
-----------------------------------------------------------------------------------------

/-- (phase.Effect w before now) relates the entries of the case of a write before the run and now,
as far as its task has come: it is the old one until an answer says that the change was applied.
-/
def Phase.Effect (w : CaseWrite) (before now : Option SingleCase) : Phase → Prop
  | .queued | .resting _ => now = before
  | .writing _ reply => reply.Effect w before now
  | .finished (.ok c) => (WriteReply.answered (.ok c)).Effect w before now
  | .finished (.error failure) => failure.case = w.case ∧ now = before

/-- The failure of a write to a case that is not stored. -/
def absence (r : CaseReference) : Failure :=
  ⟨r, (CaseStore.missing r).message⟩

/-- (phase.Smooth r stored) says that a task that writes to the case r has met no error but that the
case is not stored.
-/
def Phase.Smooth (r : CaseReference) (stored : Bool) : Phase → Prop
  | .queued => True
  | .writing _ (.answered (.ok _)) | .finished (.ok _) => stored
  | .writing _ (.answered (.error e)) => e = CaseStore.missing r ∧ ¬ stored
  | .finished (.error failure) => failure = absence r ∧ ¬ stored
  | _ => False

/-- The phase after a reply tells the same of the case as the reply did. -/
theorem Pool.phaseAfter_effect {f : FanOut} {t : Task} {reply : WriteReply} {clock : Nat}
    {before now : Option SingleCase} (effect : reply.Effect t.write before now)
    : (phaseAfter f t reply clock).Effect t.write before now := by
  cases reply with
  | crashed => exact ⟨rfl, effect⟩
  | answered answer =>
      cases answer with
      | ok c => exact effect
      | error e =>
          simp only [phaseAfter]
          split
          · exact effect
          · exact ⟨rfl, effect⟩

namespace Pool

/-- A move writes to its case or passes the time, so nothing but writing takes place. -/
theorem Move.wrote {f : FanOut} {p q : Pool} {i : Nat} {t : Task} (move : Move f p i t q)
    : p.stores.Wrote q.stores := by
  cases move with
  | start _ _ => exact .submit f.caseType t.write p.stores
  | settle _ => exact .passTime p.stores _
  | wake _ => exact .passTime p.stores _

/-- The writes of the tasks are to different cases, the phase of each tells what has become of its
case since the run began, and cases without a task are as they were.
-/
structure Faithful (before : Stores) (p : Pool) : Prop where
  distinct : (p.tasks.map (·.write.case)).Nodup
  effect
    : ∀ {i : Nat} {t : Task},
        p.tasks[i]? = some t
        → t.phase.Effect t.write (before.cases.records.get? t.write.case)
            (p.stores.cases.records.get? t.write.case)
  untouched
    : ∀ {r : CaseReference},
        r ∉ p.tasks.map (·.write.case)
        → p.stores.cases.records.get? r = before.cases.records.get? r

/-- The tasks at the start carry the writes in their order. -/
theorem ofWrites_writes (f : FanOut) (writes : List CaseWrite) (stores : Stores)
    : (ofWrites f writes stores).tasks.map Task.write = writes := by
  simp only [ofWrites, List.map_map]
  exact List.zipIdx_map_fst 0 writes

/-- At the start all tasks wait and nothing has happened. -/
theorem faithful_ofWrites (f : FanOut) {writes : List CaseWrite} (stores : Stores)
    (distinct : (writes.map CaseWrite.case).Nodup)
    : (ofWrites f writes stores).Faithful stores where
  distinct := by
    rw [← ofWrites_writes f writes stores, List.map_map] at distinct
    exact distinct
  effect := by
    intro i t found
    obtain ⟨_, _, rfl⟩ := List.mem_map.mp (List.mem_of_getElem? found)
    exact rfl
  untouched := fun _ => rfl

/-- Tasks at different places write to different cases. -/
theorem Faithful.case_ne {before : Stores} {p : Pool} (faithful : p.Faithful before)
    {i j : Nat} {t u : Task} (at_i : p.tasks[i]? = some t) (at_j : p.tasks[j]? = some u)
    (ne : i ≠ j)
    : u.write.case ≠ t.write.case := by
  intro same
  obtain ⟨inside, _⟩ := List.getElem?_eq_some_iff.mp at_i
  have within : i < (p.tasks.map (·.write.case)).length := by simpa using inside
  exact ne ((List.getElem?_inj within faithful.distinct).mp (by simp [at_i, at_j, same]))

/-- A task whose phase still fits its case may replace the one at its place, as long as the cases
of the others are left alone.
-/
theorem Faithful.replace {before : Stores} {p q : Pool} (faithful : p.Faithful before)
    {i : Nat} {t t' : Task} (found : p.tasks[i]? = some t)
    (tasks : q.tasks = p.tasks.set i t') (same : t'.write = t.write)
    (effect
      : t'.phase.Effect t.write (before.cases.records.get? t.write.case)
          (q.stores.cases.records.get? t.write.case))
    (others
      : ∀ r ≠ t.write.case, q.stores.cases.records.get? r = p.stores.cases.records.get? r)
    : q.Faithful before := by
  obtain ⟨inside, _⟩ := List.getElem?_eq_some_iff.mp found
  have cases : q.tasks.map (·.write.case) = p.tasks.map (·.write.case) := by
    have writes := congrArg (List.map CaseWrite.case) (writes_set found same)
    simpa only [tasks, List.map_map] using! writes
  refine ⟨cases ▸ faithful.distinct, ?_, ?_⟩
  · intro j u at_j
    rw [tasks, List.getElem?_set] at at_j
    split at at_j
    next here =>
      obtain rfl : t' = u := by simpa [inside] using at_j
      rw [same]
      exact effect
    next elsewhere =>
      rw [others _ (faithful.case_ne found at_j elsewhere)]
      exact faithful.effect at_j
  · intro r absent
    rw [cases] at absent
    rw [others r, faithful.untouched absent]
    rintro rfl
    exact absent (List.mem_map_of_mem (f := fun t : Task => t.write.case)
      (List.mem_of_getElem? found))

/-- Every move keeps the phases true to the cases: a start because the store answers so, the
others because they leave the store alone.
-/
theorem Move.faithful {f : FanOut} {before : Stores} {p q : Pool} {i : Nat} {t : Task}
    (found : p.tasks[i]? = some t) (move : Move f p i t q) (faithful : p.Faithful before)
    : q.Faithful before := by
  have effect := faithful.effect found
  cases move with
  | start queued permit =>
      obtain ⟨due, tasks⟩ := start_tasks f p i t
      have written := CaseStore.submit_submitted p.stores.cases t.write
      rw [queued] at effect
      refine faithful.replace found tasks rfl ?_ fun r ne => written.other ne
      rw [← show p.stores.cases.records.get? t.write.case = _ from effect]
      exact written.effect
  | settle writing =>
      rw [writing] at effect
      exact faithful.replace found rfl rfl (phaseAfter_effect effect) fun _ _ => rfl
  | wake resting =>
      rw [resting] at effect
      exact faithful.replace found rfl rfl effect fun _ _ => rfl

-----------------------------------------------------------------------------------------
-- Runs in which writes are not hindered
-----------------------------------------------------------------------------------------

/-- A task whose case is unhindered has met no error but the absence of the case. -/
def Smooth (before : Stores) (p : Pool) : Prop :=
  ∀ t ∈ p.tasks,
    before.cases.Unhindered t.write.case
    → t.phase.Smooth t.write.case (before.cases.records.get? t.write.case).isSome

theorem smooth_ofWrites (f : FanOut) (writes : List CaseWrite) (stores : Stores)
    : (ofWrites f writes stores).Smooth stores := by
  intro t member _
  obtain ⟨_, _, rfl⟩ := List.mem_map.mp member
  trivial

/-- Moves keep such tasks free of other errors, as their cases are unhindered throughout the run. -/
theorem Move.smooth {f : FanOut} {before : Stores} {p q : Pool} {i : Nat} {t : Task}
    (found : p.tasks[i]? = some t) (move : Move f p i t q) (wrote : before.Wrote p.stores)
    (smooth : p.Smooth before)
    : q.Smooth before := by
  let stored := (before.cases.records.get? t.write.case).isSome
  have replaced : ∀ {t' : Task}, t'.write = t.write
      → (before.cases.Unhindered t.write.case → t.phase.Smooth t.write.case stored
        → t'.phase.Smooth t.write.case stored)
      → ∀ u ∈ p.tasks.set i t', before.cases.Unhindered u.write.case
        → u.phase.Smooth u.write.case (before.cases.records.get? u.write.case).isSome := by
    intro t' same phase u member unhindered
    rcases List.mem_or_eq_of_mem_set member with old | rfl
    · exact smooth u old unhindered
    · rw [same] at unhindered ⊢
      exact phase unhindered (smooth t (List.mem_of_getElem? found) unhindered)
  cases move with
  | start queued permit =>
      obtain ⟨due, tasks⟩ := start_tasks f p i t
      rw [Smooth, tasks]
      refine replaced rfl fun unhindered _ => ?_
      have written := CaseStore.submit_submitted p.stores.cases t.write
      have answered := written.answered (wrote.unhindered _ unhindered)
      rw [wrote.stored] at answered
      dsimp only
      split at answered
      next present =>
        obtain ⟨c, answered⟩ := answered
        rw [answered]
        exact present
      next absent =>
        rw [answered]
        exact ⟨rfl, absent⟩
  | @settle due reply writing =>
      refine replaced rfl fun _ phase => ?_
      rw [writing] at phase
      cases reply with
      | crashed => exact phase.elim
      | answered answer =>
          cases answer with
          | error e =>
              obtain ⟨rfl, absent⟩ := phase
              exact ⟨rfl, absent⟩
          | ok c => exact phase
  | wake resting => exact replaced rfl fun _ _ => trivial

end Pool

end CaseGrouping
