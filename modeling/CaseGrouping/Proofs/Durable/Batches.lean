import CaseGrouping.Proofs.Round.Queueing
import CaseGrouping.Proofs.Round.Reachable

/-! The jobs that writes are batched in: one run of jobs for each change, in the order in which the
changes come first, each job but the last of a run being full. Nothing is lost, repeated or mixed.
-/

namespace CaseGrouping

-----------------------------------------------------------------------------------------
-- Pieces
-----------------------------------------------------------------------------------------

section Pieces

variable {α : Type} {size : Nat} (pos : 0 < size) {items piece : List α}

include pos

/-- Pieces are neither empty nor too long. -/
theorem length_of_mem_piecesOf (member : piece ∈ piecesOf size items)
    : 1 ≤ piece.length ∧ piece.length ≤ size := by
  induction items using pieces_induction pos with
  | nil => simp at member
  | cut items some ih =>
      rw [piecesOf_of_ne_nil pos some, List.mem_cons] at member
      rcases member with rfl | later
      · have length := List.length_pos_iff.mpr some
        rw [List.length_take]
        omega
      · exact ih later

/-- All pieces but the last are full. -/
theorem length_of_mem_dropLast_piecesOf (member : piece ∈ (piecesOf size items).dropLast)
    : piece.length = size := by
  induction items using pieces_induction pos with
  | nil => simp at member
  | cut items some ih =>
      rw [piecesOf_of_ne_nil pos some] at member
      by_cases left : items.drop size = []
      · simp [left] at member
      · have more : piecesOf size (items.drop size) ≠ [] := by
          rw [piecesOf_of_ne_nil pos left]
          exact List.cons_ne_nil _ _
        rw [List.dropLast_cons_of_ne_nil more, List.mem_cons] at member
        rcases member with rfl | later
        · have length := List.length_pos_iff.mpr left
          rw [List.length_drop] at length
          rw [List.length_take]
          omega
        · exact ih later

/-- Lists of which all but the last are full are the pieces of what they hold. By induction on them.
-/
theorem piecesOf_flatten {pieces : List (List α)}
    (sized : ∀ piece ∈ pieces, 1 ≤ piece.length ∧ piece.length ≤ size)
    (full : ∀ piece ∈ pieces.dropLast, piece.length = size)
    : piecesOf size pieces.flatten = pieces := by
  induction pieces with
  | nil => simp
  | cons piece rest ih =>
      obtain ⟨some, short⟩ := sized piece List.mem_cons_self
      have later : piecesOf size rest.flatten = rest := by
        refine ih (fun q member => sized q (List.mem_cons_of_mem _ member)) fun q member => ?_
        cases rest with
        | nil => cases member
        | cons => exact full q (List.mem_cons_of_mem _ member)
      have cut : (piece :: rest).flatten.take size = piece
          ∧ (piece :: rest).flatten.drop size = rest.flatten := by
        cases rest with
        | nil => simp [short]
        | cons q more => simp [← full piece List.mem_cons_self]
      have nonempty : (piece :: rest).flatten ≠ [] := by
        have inside := List.length_pos_iff.mp some
        simp [inside]
      rw [piecesOf_of_ne_nil pos nonempty, cut.1, cut.2, later]

end Pieces

-----------------------------------------------------------------------------------------
-- Jobs
-----------------------------------------------------------------------------------------

/-- The run of jobs that address one change to cases. -/
def runOf (multiple : MultipleReference) (baseVersion : Option UInt64) (createdAt : Timestamp)
    (size : Nat) (cases : List CaseReference) (c : ChangeSet) : List Job :=
  (piecesOf size cases).map fun piece => .make multiple baseVersion piece c createdAt

/-- (Batched multiple baseVersion createdAt writes size jobs) says that the jobs are for a multiple
read at a version, and carry the writes in batches of a size: for each change a run of jobs in which
all but the last are full, the changes in the order in which the writes have them first.
-/
structure Batched (multiple : MultipleReference) (baseVersion : Option UInt64)
    (createdAt : Timestamp) (writes : List CaseWrite) (size : Nat) (jobs : List Job)
    : Prop where
  made : ∀ job ∈ jobs, job = .make multiple baseVersion job.cases job.change createdAt
  carried : (jobs.flatMap Job.writes).Perm writes
  sized
    : ∀ job ∈ jobs,
        1 ≤ job.cases.length
        ∧ job.cases.length ≤ size
        ∧ job.expectedBatchSize = job.cases.length
  addressed
    : ∀ c,
        (jobs.filter (·.change = c)).flatMap Job.cases
        = (writes.filter (·.change = c)).map CaseWrite.case
  full : ∀ c, ∀ job ∈ (jobs.filter (·.change = c)).dropLast, job.cases.length = size
  runs
    : ∃ changes,
        FirstOccurrences changes (writes.map CaseWrite.change) (fun _ => True)
        ∧ jobs = changes.flatMap fun c => jobs.filter (·.change = c)

section Jobs

variable {multiple : MultipleReference} {baseVersion : Option UInt64} {createdAt : Timestamp}
  {writes : List CaseWrite} {size : Nat} {jobs : List Job}

theorem flatMap_runOf (pos : 0 < size) (cases : List CaseReference) (c : ChangeSet)
    : (runOf multiple baseVersion createdAt size cases c).flatMap Job.cases = cases := by
  rw [runOf, List.flatMap_map]
  change (piecesOf size cases).flatMap id = cases
  rw [List.flatMap_id, flatten_piecesOf pos]

/-- Of a list without repetitions one element counts, by induction on the list. -/
theorem flatMap_ite_eq {α β : Type} [DecidableEq α] {l : List α} (distinct : l.Nodup) (a : α)
    (f : α → List β)
    : (l.flatMap fun b => if b = a then f b else []) = if a ∈ l then f a else [] := by
  induction l with
  | nil => rfl
  | cons b rest ih =>
      obtain ⟨fresh, distinct⟩ := List.nodup_cons.mp distinct
      rw [List.flatMap_cons, ih distinct]
      by_cases same : b = a
      · subst same
        simp [fresh]
      · simp [same, Ne.symm same]

/-- The writes are batched in a run of jobs for each of the changes. -/
theorem buildJobs_eq
    : buildJobs multiple baseVersion writes size createdAt
      = (writes.map CaseWrite.change).eraseDups.flatMap fun c =>
          runOf multiple baseVersion createdAt size (addressees writes c) c := by
  rw [buildJobs, ChangeGroup.ofWrites_eq, List.flatMap_map]
  rfl

/-- A job that is built addresses a piece of the cases of some change. -/
theorem exists_piece {job : Job}
    (member : job ∈ buildJobs multiple baseVersion writes size createdAt)
    : ∃ c, ∃ piece ∈ piecesOf size (addressees writes c),
        job = .make multiple baseVersion piece c createdAt := by
  rw [buildJobs_eq, List.mem_flatMap] at member
  obtain ⟨c, _, inside⟩ := member
  obtain ⟨piece, cut, rfl⟩ := List.mem_map.mp inside
  exact ⟨c, piece, cut, rfl⟩

/-- All jobs of a run are for its change. -/
theorem filter_runOf (cases : List CaseReference) (c d : ChangeSet)
    : (runOf multiple baseVersion createdAt size cases d).filter (·.change = c)
      = if d = c then runOf multiple baseVersion createdAt size cases d else [] := by
  have change : ∀ job ∈ runOf multiple baseVersion createdAt size cases d, job.change = d := by
    simp [runOf, Job.make]
  split
  next same =>
    exact List.filter_eq_self.mpr fun job member => by simp [change job member, same]
  next other =>
    exact List.filter_eq_nil_iff.mpr fun job member => by simp [change job member, other]

/-- The jobs of one change are its run. -/
theorem filter_buildJobs (c : ChangeSet)
    : (buildJobs multiple baseVersion writes size createdAt).filter (·.change = c)
      = runOf multiple baseVersion createdAt size (addressees writes c) c := by
  rw [buildJobs_eq, List.filter_flatMap]
  simp only [filter_runOf]
  rw [flatMap_ite_eq (firstOccurrences_eraseDups _).nodup]
  split
  next => rfl
  next unknown =>
    rw [addressees_of_absent (by simpa using unknown), runOf, piecesOf_nil, List.map_nil]

/-- The jobs that are built carry the writes in batches. -/
theorem batched_buildJobs (pos : 0 < size)
    : Batched multiple baseVersion createdAt writes size
        (buildJobs multiple baseVersion writes size createdAt) where
  made := by
    intro job member
    obtain ⟨c, piece, _, rfl⟩ := exists_piece member
    rfl
  carried := writes_buildJobs multiple baseVersion pos createdAt writes
  sized := by
    intro job member
    obtain ⟨c, piece, cut, rfl⟩ := exists_piece member
    obtain ⟨some, short⟩ := length_of_mem_piecesOf pos cut
    exact ⟨some, short, rfl⟩
  addressed := by
    intro c
    rw [filter_buildJobs, flatMap_runOf pos]
    rfl
  full := by
    intro c job member
    rw [filter_buildJobs, runOf, ← List.map_dropLast] at member
    obtain ⟨piece, cut, rfl⟩ := List.mem_map.mp member
    exact length_of_mem_dropLast_piecesOf pos cut
  runs := by
    refine ⟨_, firstOccurrences_eraseDups _, ?_⟩
    simp only [filter_buildJobs]
    exact buildJobs_eq

/-- In a batch the jobs of one change are its run, since its pieces can be cut in one way. -/
theorem Batched.filter_eq (batched : Batched multiple baseVersion createdAt writes size jobs)
    (pos : 0 < size) (c : ChangeSet)
    : jobs.filter (·.change = c)
      = runOf multiple baseVersion createdAt size (addressees writes c) c := by
  have pieces : piecesOf size (addressees writes c)
      = (jobs.filter (·.change = c)).map Job.cases := by
    have flat : ((jobs.filter (·.change = c)).map Job.cases).flatten = addressees writes c := by
      rw [← List.flatMap_def, batched.addressed c]
      rfl
    rw [← flat]
    refine piecesOf_flatten pos (fun piece member => ?_) fun piece member => ?_
    · obtain ⟨job, inside, rfl⟩ := List.mem_map.mp member
      obtain ⟨some, short, _⟩ := batched.sized job (List.mem_filter.mp inside).1
      exact ⟨some, short⟩
    · rw [← List.map_dropLast] at member
      obtain ⟨job, inside, rfl⟩ := List.mem_map.mp member
      exact batched.full c job inside
  rw [runOf, pieces, List.map_map]
  refine (List.map_id _).symm.trans (List.map_congr_left fun job inside => ?_)
  obtain ⟨member, change⟩ := List.mem_filter.mp inside
  have change : job.change = c := by simpa using change
  rw [Function.comp_apply, ← change]
  exact batched.made job member

/-- Jobs carry writes in batches exactly if they are the ones that are built. -/
theorem batched_iff_built (pos : 0 < size) (jobs : List Job)
    : Batched multiple baseVersion createdAt writes size jobs
      ↔ jobs = buildJobs multiple baseVersion writes size createdAt := by
  constructor
  · intro batched
    obtain ⟨changes, firsts, runs⟩ := batched.runs
    have order := firsts.unique (firstOccurrences_eraseDups _)
    rw [runs, order, buildJobs_eq]
    exact List.flatMap_congr fun c _ => batched.filter_eq pos c
  · rintro rfl
    exact batched_buildJobs pos

end Jobs

namespace Sample

/-- Both cases are written to, the first one twice alike and the second one in two ways. -/
def mixedWrites : List CaseWrite :=
  [⟨one, .setLead true⟩, ⟨two, .setLead false⟩, ⟨one, .setLead true⟩, ⟨two, .setLead true⟩]

theorem mixedWrites_batched
    : 0 < 2
      ∧ Batched group (some 1) .epoch mixedWrites 2
          [ .make group (some 1) [one, one] (.setLead true) .epoch,
            .make group (some 1) [two] (.setLead true) .epoch,
            .make group (some 1) [two] (.setLead false) .epoch ] := by
  have changes : (mixedWrites.map CaseWrite.change).eraseDups
      = [.setLead true, .setLead false] := by decide +kernel
  have pos : 0 < 2 := by decide
  have flagged : piecesOf 2 [[one, one], [two]].flatten = [[one, one], [two]] :=
    piecesOf_flatten pos (by simp) (by simp)
  have cleared : piecesOf 2 [[two]].flatten = [[two]] := piecesOf_flatten pos (by simp) (by simp)
  have addressed : addressees mixedWrites (.setLead true) = [[one, one], [two]].flatten
      ∧ addressees mixedWrites (.setLead false) = [[two]].flatten := by decide
  refine ⟨pos, (batched_iff_built pos _).mpr ?_⟩
  rw [buildJobs_eq, changes, List.flatMap_cons, List.flatMap_singleton, runOf, runOf, addressed.1,
    addressed.2, flagged, cleared]
  rfl

end Sample

end CaseGrouping
