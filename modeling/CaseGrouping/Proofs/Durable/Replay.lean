import CaseGrouping.Proofs.Round.Queueing
import CaseGrouping.Proofs.Round.Reachable

/-! Replay of queued jobs: it writes what the jobs carry, in whatever order and grouping. As long as
the writes are to different cases, it leaves the cases that a delivery without faults leaves.
-/

namespace CaseGrouping

-----------------------------------------------------------------------------------------
-- Cases after writes
-----------------------------------------------------------------------------------------

/-- The stored cases after a write that goes through. -/
def afterWrite (cases : Register CaseReference SingleCase) (w : CaseWrite)
    : Register CaseReference SingleCase :=
  match cases.get? w.case with
  | some c => cases.insert w.case (w.change.apply c)
  | none => cases

/-- The stored cases after writes that all go through, one after the other. -/
def afterWrites (cases : Register CaseReference SingleCase) (writes : List CaseWrite)
    : Register CaseReference SingleCase :=
  writes.foldl afterWrite cases

variable {cases before after : Register CaseReference SingleCase} {writes other : List CaseWrite}
  {w : CaseWrite} {r : CaseReference}

/-- A write changes the case that it is addressed to, if it is stored, and no other. -/
theorem get?_afterWrite (cases : Register CaseReference SingleCase) (w : CaseWrite)
    (r : CaseReference)
    : (afterWrite cases w).get? r
      = if r = w.case then (cases.get? r).map w.change.apply else cases.get? r := by
  unfold afterWrite
  by_cases here : r = w.case
  · rw [if_pos here, here]
    split
    next c stored => rw [Register.get?_insert_self, stored, Option.map_some]
    next absent => rw [absent, Option.map_none]
  · rw [if_neg here]
    split
    · exact Register.get?_insert_of_ne _ _ here
    · rfl

theorem afterWrites_append (cases : Register CaseReference SingleCase)
    (writes other : List CaseWrite)
    : afterWrites cases (writes ++ other) = afterWrites (afterWrites cases writes) other :=
  List.foldl_append

/-- Cases that are not written to stay as they are, by induction on the writes. -/
theorem get?_afterWrites_of_absent (absent : r ∉ writes.map CaseWrite.case)
    : (afterWrites cases writes).get? r = cases.get? r := by
  induction writes generalizing cases with
  | nil => rfl
  | cons v rest ih =>
      rw [List.map_cons, List.mem_cons, not_or] at absent
      exact (ih absent.2).trans ((get?_afterWrite cases v r).trans (if_neg absent.1))

/-- Among writes to different cases, the one to a case decides what becomes of it. -/
theorem get?_afterWrites (distinct : (writes.map CaseWrite.case).Nodup) (member : w ∈ writes)
    : (afterWrites cases writes).get? w.case = (cases.get? w.case).map w.change.apply := by
  induction writes generalizing cases with
  | nil => cases member
  | cons v rest ih =>
      obtain ⟨fresh, distinct⟩ := List.nodup_cons.mp distinct
      change (afterWrites (afterWrite cases v) rest).get? w.case = _
      rcases List.mem_cons.mp member with rfl | later
      · rw [get?_afterWrites_of_absent fresh, get?_afterWrite, if_pos rfl]
      · have apart : w.case ≠ v.case := fun same =>
          fresh (same ▸ List.mem_map_of_mem later)
        rw [ih distinct later, get?_afterWrite, if_neg apart]

/-- The order of writes to different cases does not matter. -/
theorem afterWrites_perm (cases : Register CaseReference SingleCase)
    (distinct : (writes.map CaseWrite.case).Nodup) (perm : other.Perm writes)
    : afterWrites cases other = afterWrites cases writes := by
  have same := perm.map CaseWrite.case
  refine Register.ext_get? fun r => ?_
  by_cases written : r ∈ writes.map CaseWrite.case
  · obtain ⟨w, member, rfl⟩ := List.mem_map.mp written
    rw [get?_afterWrites distinct member,
      get?_afterWrites (same.nodup_iff.mpr distinct) (perm.mem_iff.mpr member)]
  · rw [get?_afterWrites_of_absent written,
      get?_afterWrites_of_absent fun member => written (same.mem_iff.mp member)]

-----------------------------------------------------------------------------------------
-- Deliveries without faults
-----------------------------------------------------------------------------------------

/-- Without faults every case is reported as written, and none as failed. -/
theorem Propagation.ofFaults_of_free {fault : CaseReference → Option Failure}
    (free : ∀ r ∈ writes.map CaseWrite.case, fault r = none)
    : ofFaults fault writes = { written := writes.map CaseWrite.case } := by
  have written : (writes.map CaseWrite.case).filter (fun r => (fault r).isNone)
      = writes.map CaseWrite.case :=
    List.filter_eq_self.mpr fun r member => by rw [free r member]; rfl
  have failures : (writes.map CaseWrite.case).filterMap fault = [] :=
    List.filterMap_eq_nil_iff.mpr free
  rw [ofFaults, written, failures]

/-- When only cases fail that are not stored, a delivery does all its writes, as one to a case that
is not stored does nothing.
-/
theorem Delivered.eq_afterWrites {fault : CaseReference → Option Failure}
    (delivered : Delivered fault writes before after)
    (told : ∀ r ∈ writes.map CaseWrite.case, fault r = absence? before r)
    (distinct : (writes.map CaseWrite.case).Nodup)
    : after = afterWrites before writes := by
  refine Register.ext_get? fun r => ?_
  by_cases written : r ∈ writes.map CaseWrite.case
  · obtain ⟨w, member, rfl⟩ := List.mem_map.mp written
    have told := told _ written
    rw [get?_afterWrites distinct member]
    unfold absence? at told
    split at told
    · obtain ⟨c, stored, now⟩ := delivered.applied member told
      rw [stored, now, Option.map_some]
    next absent =>
      rw [delivered.refused told, Option.not_isSome_iff_eq_none.mp absent, Option.map_none]
  · rw [get?_afterWrites_of_absent written, delivered.untouched written]

-----------------------------------------------------------------------------------------
-- Jobs
-----------------------------------------------------------------------------------------

namespace Stores

variable {s : Stores}

/-- Replaying a job does the writes that it carries. -/
theorem replay_records (job : Job) (keyed : s.cases.Keyed)
    : (s.replay job).cases.records = afterWrites s.cases.records job.writes := by
  -- The induction is on part of the job's cases, since a job applies to all of them throughout.
  have part : ∀ (rs : List CaseReference) (cases : CaseStore), rs ⊆ job.cases → cases.Keyed
      → (rs.foldl
          (fun cases r =>
            match cases.records.get? r with
            | some c => cases.insert (job.apply c)
            | none => cases) cases).records
        = afterWrites cases.records (rs.map (⟨·, job.change⟩)) := by
    intro rs
    induction rs with
    | nil => exact fun _ _ _ => rfl
    | cons r rest ih =>
        intro cases within keyed
        obtain ⟨addressed, within⟩ := List.cons_subset.mp within
        rw [List.foldl_cons, List.map_cons]
        change _ = afterWrites (afterWrite cases.records ⟨r, job.change⟩) _
        unfold afterWrite
        dsimp only
        split
        next c stored =>
          have reference : c.reference = r := keyed r c stored
          have applied : job.apply c = job.change.apply c := by
            rw [Job.apply, Job.targets, reference, if_pos (decide_eq_true addressed)]
          rw [ih _ within (keyed.insert _), CaseStore.insert, applied,
            ChangeSet.apply_reference, reference]
        next => exact ih cases within keyed
  exact part job.cases s.cases (List.Subset.refl _) keyed

/-- Replaying jobs does all writes that they carry, by induction on the jobs. -/
theorem foldl_replay_records (jobs : List Job) (keyed : s.cases.Keyed)
    : (jobs.foldl replay s).cases.records
      = afterWrites s.cases.records (jobs.flatMap Job.writes) := by
  induction jobs generalizing s with
  | nil => rfl
  | cons job rest ih =>
      rw [List.foldl_cons, ih (keyed_replay job keyed).1, replay_records job keyed,
        List.flatMap_cons, afterWrites_append]

end Stores

end CaseGrouping
