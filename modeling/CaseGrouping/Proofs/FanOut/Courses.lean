import CaseGrouping.Proofs.FanOut.Moves

/-! Courses of the pool, in which its tasks move in any order and their writes get any replies.
At every moment a task holds a permit exactly while its write is under way, so no more writes are
under way than there are workers, and every course comes to an end with all permits given back.
-/

namespace CaseGrouping

namespace Pool

/-- A move as it is seen from outside: the place of its task, the reply to the write that was sent,
if one was, and by how many permits fewer are free after it than before.
-/
structure Event where
  place : Nat
  reply : Option WriteReply
  taken : Int

/-- (Course f start events p) says that turns with these events lead from the pool start to p. -/
inductive Course (f : FanOut) (start : Pool) : List Event → Pool → Prop where
  | start : Course f start [] start
  | turn {events p i t reply? q} (course : Course f start events p)
    (found : p.tasks[i]? = some t) (turn : Turn f p i t reply? q)
    : Course f start (events ++ [⟨i, reply?, p.free - q.free⟩]) q

/-- No task of the pool can move. -/
def Ended (f : FanOut) (p : Pool) : Prop :=
  ∀ {i t reply? q}, p.tasks[i]? = some t → ¬ Turn f p i t reply? q

/-- The permits that the task at a place has taken and not given back. -/
def held : List Event → Nat → Int
  | [], _ => 0
  | e :: events, i => (if e.place = i then e.taken else 0) + held events i

theorem held_concat (events : List Event) (e : Event) (i : Nat)
    : held (events ++ [e]) i = held events i + if e.place = i then e.taken else 0 := by
  induction events with
  | nil => simp [held]
  | cons first events ih => rw [List.cons_append, held, ih, held, Int.add_assoc]

-----------------------------------------------------------------------------------------
-- What every course keeps
-----------------------------------------------------------------------------------------

namespace Course

variable {f : FanOut} {start p : Pool} {events : List Event}

theorem keeps_permits (course : Course f start events p) (permits : start.Permits f)
    : p.Permits f := by
  induction course with
  | start => exact permits
  | turn _ found turn ih => exact turn.keeps_permits found ih

theorem writes (course : Course f start events p)
    : p.tasks.map Task.write = start.tasks.map Task.write := by
  induction course with
  | start => rfl
  | turn _ found turn ih => exact (turn.writes found).trans ih

/-- Every event of a course uses up one of the moves that were left, so courses are bounded. -/
theorem length_add_remaining_le (course : Course f start events p)
    : events.length + p.remaining f ≤ start.remaining f := by
  induction course with
  | start => simp
  | turn _ found turn ih =>
      have less := turn.remaining_lt found
      rw [List.length_append, List.length_singleton]
      omega

/-- A task that held nothing at the start holds what its moves have taken and not given back, by
induction on the course.
-/
theorem held_eq (course : Course f start events p) (idle : ∀ t ∈ start.tasks, t.permits = 0)
    {j : Nat} {u : Task} (at_j : p.tasks[j]? = some u)
    : held events j = u.permits := by
  induction course generalizing j u with
  | start =>
      rw [idle u (List.mem_of_getElem? at_j)]
      rfl
  | @turn events p i t reply? q _ found turn ih =>
      obtain ⟨inside, _⟩ := List.getElem?_eq_some_iff.mp found
      obtain ⟨t', tasks, _, passed⟩ := turn.tasks
      rw [tasks, List.getElem?_set] at at_j
      rw [held_concat]
      split at at_j
      next here =>
        obtain rfl : t' = u := by simpa [inside] using at_j
        rw [if_pos here, ← here, ih found]
        dsimp only
        omega
      next elsewhere =>
        rw [if_neg elsewhere, ih at_j, Int.add_zero]

/-- A run of the pool is a course, in which the replies come from the store of cases. -/
theorem run (course : Course f start events p) (n : Nat)
    : ∃ events, Course f start events (p.run f n) :=
  run_induction (P := fun p => ∃ events, Course f start events p)
    (fun found move ⟨_, course⟩ => by
      obtain ⟨_, turn⟩ := move.turn
      exact ⟨_, course.turn found turn⟩)
    n ⟨_, course⟩

end Course

/-- As long as a task is unfinished some task can move. -/
theorem Ended.finished {f : FanOut} {p : Pool} (ended : p.Ended f) (permits : p.Permits f)
    : ∀ t ∈ p.tasks, (t.outcome?).isSome := by
  refine finished_of_stuck permits fun i => ?_
  cases advanced : p.advance? f i with
  | none => rfl
  | some q =>
      obtain ⟨t, found, move⟩ := move_of_advance? advanced
      obtain ⟨_, turn⟩ := move.turn
      exact (ended found turn).elim

/-- Finished tasks do not move. -/
theorem ended_of_finished (f : FanOut) {p : Pool}
    (finished : ∀ t ∈ p.tasks, (t.outcome?).isSome)
    : p.Ended f := by
  intro i t reply? q found turn
  have finished := finished t (List.mem_of_getElem? found)
  cases turn with
  | start queued _ => simp [Task.outcome?, queued] at finished
  | settle writing => simp [Task.outcome?, writing] at finished
  | wake resting => simp [Task.outcome?, resting] at finished

/-- Finished tasks hold no permits, so all of them are free. -/
theorem Permits.free_eq {f : FanOut} {p : Pool} (permits : p.Permits f)
    (finished : ∀ t ∈ p.tasks, (t.outcome?).isSome)
    : p.free = f.workers := by
  have none : p.tasks.countP Task.isWriting = 0 := by
    refine List.countP_eq_zero.mpr fun t member writing => ?_
    have finished := finished t member
    cases phase : t.phase <;> simp [Task.isWriting, Task.outcome?, phase] at writing finished
  rw [Permits, none] at permits
  exact permits

-----------------------------------------------------------------------------------------
-- Courses from the start
-----------------------------------------------------------------------------------------

theorem idle_ofWrites (f : FanOut) (writes : List CaseWrite) (stores : Stores)
    : ∀ t ∈ (ofWrites f writes stores).tasks, t.permits = 0 := by
  intro t member
  obtain ⟨_, _, rfl⟩ := List.mem_map.mp member
  rfl

theorem course_length_le {f : FanOut} {writes : List CaseWrite} {stores : Stores}
    {events : List Event} {p : Pool} (course : Course f (ofWrites f writes stores) events p)
    : events.length ≤ (ofWrites f writes stores).steps f := by
  have left := course.length_add_remaining_le
  have most := remaining_ofWrites_le f writes stores
  omega

end Pool

/-- What is sent through the pool takes a course that has ended, and the report is about its end. -/
theorem FanOut.execute_course (f : FanOut) (writes : List CaseWrite) (stores : Stores)
    : ∃ events p,
        Pool.Course f (Pool.ofWrites f writes stores) events p
        ∧ p.Ended f
        ∧ f.execute writes stores = (.ofPool p, p.stores) := by
  obtain ⟨events, course⟩ := Pool.Course.start.run (Pool.steps f (Pool.ofWrites f writes stores))
  exact ⟨events, _, course,
    Pool.ended_of_finished f (Pool.run_ofWrites_finishes f writes stores), rfl⟩

/-- At every moment, whatever the order of the moves and the replies, no more writes are under way
than there are workers, and a task holds one permit while its write is under way and none while it
waits, pauses or is finished. Courses are bounded, and at the end of one all tasks are finished and
all permits are free; every moment of sending writes through the pool is one of a course, and the
last one is the end of it.
-/
theorem FanOut.execute_bounded (f : FanOut) (writes : List CaseWrite) (stores : Stores)
    : (∀ events p,
          Pool.Course f (Pool.ofWrites f writes stores) events p
          → p.tasks.countP Task.isWriting ≤ f.workers
            ∧ (∀ i t, p.tasks[i]? = some t
                → Pool.held events i = if t.isWriting then 1 else 0)
            ∧ events.length ≤ (Pool.ofWrites f writes stores).steps f
            ∧ (p.Ended f → (∀ t ∈ p.tasks, (t.outcome?).isSome) ∧ p.free = f.workers))
      ∧ (∀ n, ∃ events,
          Pool.Course f (Pool.ofWrites f writes stores) events
            ((Pool.ofWrites f writes stores).run f n))
      ∧ ∃ events p,
          Pool.Course f (Pool.ofWrites f writes stores) events p
          ∧ p.Ended f
          ∧ f.execute writes stores = (.ofPool p, p.stores) := by
  refine ⟨fun events p course => ?_, fun n => Pool.Course.start.run n, f.execute_course writes stores⟩
  have permits := course.keeps_permits (Pool.permits_ofWrites f writes stores)
  refine ⟨?_, fun i t found => ?_, Pool.course_length_le course, fun ended => ?_⟩
  · unfold Pool.Permits at permits
    omega
  · rw [course.held_eq (Pool.idle_ofWrites f writes stores) found, Task.permits]
    split <;> rfl
  · have finished := ended.finished permits
    exact ⟨finished, permits.free_eq finished⟩

end CaseGrouping
