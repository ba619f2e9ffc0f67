import CaseGrouping.FanOut.Report
import Mathlib.Algebra.GroupWithZero.Nat

/-! Moves of the pool. Every move takes one task on by one phase, no permit is lost or made up,
whatever a write is answered, and the steps that a run is allowed are enough for all its tasks to
finish.
-/

namespace CaseGrouping

/-- The moves that a task has before it at most. An attempt takes three of them: it starts, it
ends, and a pause ends.
-/
def Task.remaining (f : FanOut) (t : Task) : Nat :=
  match t.phase with
  | .queued => 3 * (f.retry.maxAttempts - t.attempt) + 2
  | .writing .. => 3 * (f.retry.maxAttempts - t.attempt) + 1
  | .resting _ => 3 * (f.retry.maxAttempts - (t.attempt + 1)) + 3
  | .finished _ => 0

/-- A further attempt may get a better reply. -/
def WriteReply.mayPass : WriteReply → Bool
  | .answered (.error e) => e.isRetryable
  | _ => false

/-- What a write has come to when a reply is its last one. -/
def WriteReply.outcome (w : CaseWrite) : WriteReply → Except Failure SingleCase
  | .answered (.ok c) => .ok c
  | .answered (.error e) => .error ⟨w.case, e.message⟩
  | .crashed => .error ⟨w.case, Pool.crashReason⟩

/-- The permits that a task holds: one while its write is under way. -/
def Task.permits (t : Task) : Nat :=
  if t.isWriting then 1 else 0

namespace Pool

-----------------------------------------------------------------------------------------
-- What one move does
-----------------------------------------------------------------------------------------

/-- A start leaves its task writing, with the reply that the store of cases has given. -/
theorem start_tasks (f : FanOut) (p : Pool) (i : Nat) (t : Task)
    : ∃ due,
        (p.start f i t).tasks
          = p.tasks.set i
              { t with
                phase := .writing due (p.stores.cases.submit t.write).1
                ticket := p.tickets } :=
  ⟨_, rfl⟩

/-- (Move f p i t q) says that q comes from p by a move of the task t at the place i.
This proof-only relation names the phase and the guard under which each move is made.
-/
inductive Move (f : FanOut) (p : Pool) (i : Nat) (t : Task) : Pool → Prop where
  | start (queued : t.phase = .queued) (permit : p.free ≠ 0) : Move f p i t (p.start f i t)
  | settle {due reply} (writing : t.phase = .writing due reply)
    : Move f p i t (p.settle f i t due reply)
  | wake {due} (resting : t.phase = .resting due) : Move f p i t (p.wake i t due)

/-- (Turn f p i t reply? q) says that q comes from p by a move of the task t at the place i, and
that the reply is to the write that it sends, if it sends one. The reply may be any, come at any
time, and leave the stores in any state: what holds of turns does not depend on the stores.
-/
inductive Turn (f : FanOut) (p : Pool) (i : Nat) (t : Task) : Option WriteReply → Pool → Prop where
  | start {due reply stores} (queued : t.phase = .queued) (permit : p.free ≠ 0)
    : Turn f p i t (some reply)
        ({ p with free := p.free - 1, stores }.enter i t (.writing due reply))
  | settle {due reply} (writing : t.phase = .writing due reply)
    : Turn f p i t none (p.settle f i t due reply)
  | wake {due} (resting : t.phase = .resting due) : Turn f p i t none (p.wake i t due)

/-- A move is a turn in which the reply comes from the store of cases. -/
theorem Move.turn {f : FanOut} {p q : Pool} {i : Nat} {t : Task} (move : Move f p i t q)
    : ∃ reply?, Turn f p i t reply? q := by
  cases move with
  | start queued permit => exact ⟨_, .start queued permit⟩
  | settle writing => exact ⟨_, .settle writing⟩
  | wake resting => exact ⟨_, .wake resting⟩

/-- Advancing a place is a move of the task that stands there, by cases on its phase. -/
theorem move_of_advance? {f : FanOut} {p q : Pool} {i : Nat} (h : p.advance? f i = some q)
    : ∃ t, p.tasks[i]? = some t ∧ Move f p i t q := by
  unfold advance? at h
  split at h
  · cases h
  next t found =>
    refine ⟨t, found, ?_⟩
    split at h
    next queued =>
      split at h
      · cases h
      next permit =>
        cases h
        exact .start queued permit
    next due reply writing =>
      cases h
      exact .settle writing
    next due resting =>
      cases h
      exact .wake resting
    · cases h

/-- A task that waits while a permit is free, writes or pauses can move. -/
theorem advance?_isSome {f : FanOut} {p : Pool} {i : Nat} {t : Task}
    (found : p.tasks[i]? = some t)
    (able : t.isQueued = true ∧ p.free ≠ 0 ∨ (t.due?).isSome)
    : ∃ q, p.advance? f i = some q := by
  simp only [advance?, found]
  cases phase : t.phase with
  | queued =>
      have permit : p.free ≠ 0 := by
        rcases able with ⟨_, permit⟩ | due
        · exact permit
        · simp [Task.due?, phase] at due
      exact ⟨_, if_neg permit⟩
  | writing due reply => exact ⟨_, rfl⟩
  | resting due => exact ⟨_, rfl⟩
  | finished outcome => simp [Task.isQueued, Task.due?, phase] at able

/-- What every move keeps is kept by a run, by induction on the steps. -/
theorem run_induction {f : FanOut} {P : Pool → Prop}
    (step : ∀ {p q i t}, p.tasks[i]? = some t → Move f p i t q → P p → P q)
    (n : Nat) {p : Pool} (h : P p)
    : P (run f n p) := by
  induction n generalizing p with
  | zero => exact h
  | succ n ih =>
      unfold run
      split
      · exact h
      next q next =>
        obtain ⟨i, _, advanced⟩ := Option.bind_eq_some_iff.mp next
        obtain ⟨t, found, move⟩ := move_of_advance? advanced
        exact ih (step found move h)

/-- After a reply that may pass a task pauses, while attempts are left; any other reply is its
outcome.
-/
theorem phaseAfter_eq (f : FanOut) (t : Task) (reply : WriteReply) (clock : Nat)
    : phaseAfter f t reply clock
      = if reply.mayPass && t.attempt < f.retry.maxAttempts then
          .resting (clock + Duration.waited (f.retry.backoff t.attempt).millis)
        else .finished (reply.outcome t.write) := by
  cases reply with
  | crashed => rfl
  | answered answer => cases answer <;> rfl

/-- After a reply a task is finished, or it pauses with an attempt left. -/
theorem phaseAfter_cases (f : FanOut) (t : Task) (reply : WriteReply) (clock : Nat)
    : (∃ outcome, phaseAfter f t reply clock = .finished outcome)
      ∨ ∃ due, phaseAfter f t reply clock = .resting due ∧ t.attempt < f.retry.maxAttempts := by
  rw [phaseAfter_eq]
  split
  next again => exact .inr ⟨_, rfl, of_decide_eq_true (Bool.and_eq_true_iff.mp again).2⟩
  · exact .inl ⟨_, rfl⟩

/-- A turn changes one task, and not its write. What the task holds of the permits is what is no
longer free.
-/
theorem Turn.tasks {f : FanOut} {p q : Pool} {i : Nat} {t : Task} {reply? : Option WriteReply}
    (turn : Turn f p i t reply? q)
    : ∃ t',
        q.tasks = p.tasks.set i t'
        ∧ t'.write = t.write
        ∧ q.free + t'.permits = p.free + t.permits := by
  cases turn with
  | start queued permit =>
      refine ⟨_, rfl, rfl, ?_⟩
      simp only [enter, Task.permits, Task.isWriting, queued, Bool.false_eq_true, if_true, if_false]
      omega
  | @settle due reply writing =>
      refine ⟨_, rfl, rfl, ?_⟩
      simp only [Task.permits, Task.isWriting, writing, if_true]
      rcases phaseAfter_cases f t reply (p.reach due).stores.clock with
        ⟨_, ends⟩ | ⟨_, pauses, _⟩
      · simp only [ends, Bool.false_eq_true, if_false]
        rfl
      · simp only [pauses, Bool.false_eq_true, if_false]
        rfl
  | wake resting =>
      refine ⟨_, rfl, rfl, ?_⟩
      simp only [Pool.wake, enter, reach, Task.permits, Task.isWriting, resting,
        Bool.false_eq_true, if_false]

/-- A task may be replaced by one with the same write without changing the list of writes. -/
theorem writes_set {tasks : List Task} {i : Nat} {t t' : Task} (found : tasks[i]? = some t)
    (same : t'.write = t.write)
    : (tasks.set i t').map Task.write = tasks.map Task.write := by
  obtain ⟨inside, at_i⟩ := List.getElem?_eq_some_iff.mp found
  rw [List.map_set, same]
  refine List.ext_getElem? fun j => ?_
  rw [List.getElem?_set]
  split
  next here =>
    subst here
    simp [inside, at_i]
  · rfl

/-- The writes of the tasks are those of the start, in their order. -/
theorem Turn.writes {f : FanOut} {p q : Pool} {i : Nat} {t : Task} {reply? : Option WriteReply}
    (found : p.tasks[i]? = some t) (turn : Turn f p i t reply? q)
    : q.tasks.map Task.write = p.tasks.map Task.write := by
  obtain ⟨t', tasks, same, _⟩ := turn.tasks
  rw [tasks]
  exact writes_set found same

theorem Move.writes {f : FanOut} {p q : Pool} {i : Nat} {t : Task}
    (found : p.tasks[i]? = some t) (move : Move f p i t q)
    : q.tasks.map Task.write = p.tasks.map Task.write := by
  obtain ⟨_, turn⟩ := move.turn
  exact turn.writes found

-----------------------------------------------------------------------------------------
-- Permits
-----------------------------------------------------------------------------------------

/-- The free permits and those held by writing tasks are as many as there are workers. -/
def Permits (f : FanOut) (p : Pool) : Prop :=
  p.free + p.tasks.countP Task.isWriting = f.workers

theorem permits_ofWrites (f : FanOut) (writes : List CaseWrite) (stores : Stores)
    : (ofWrites f writes stores).Permits f := by
  have idle : (ofWrites f writes stores).tasks.countP Task.isWriting = 0 := by
    apply List.countP_eq_zero.mpr
    intro t member
    obtain ⟨_, _, rfl⟩ := List.mem_map.mp member
    simp [Task.isWriting]
  simp only [Permits, idle]
  rfl

/-- A turn passes a permit between the free ones and its task, or touches none. -/
theorem Turn.keeps_permits {f : FanOut} {p q : Pool} {i : Nat} {t : Task}
    {reply? : Option WriteReply} (found : p.tasks[i]? = some t) (turn : Turn f p i t reply? q)
    (h : p.Permits f)
    : q.Permits f := by
  obtain ⟨inside, at_i⟩ := List.getElem?_eq_some_iff.mp found
  obtain ⟨t', tasks, _, passed⟩ := turn.tasks
  have counted : t.permits ≤ p.tasks.countP Task.isWriting := by
    unfold Task.permits
    split
    next writing => exact List.countP_pos_iff.mpr ⟨t, List.mem_of_getElem? found, writing⟩
    · exact Nat.zero_le _
  have count : q.tasks.countP Task.isWriting
      = p.tasks.countP Task.isWriting - t.permits + t'.permits := by
    rw [tasks, List.countP_set inside, at_i, Task.permits, Task.permits]
  unfold Permits at h ⊢
  omega

-----------------------------------------------------------------------------------------
-- The choice of the next task
-----------------------------------------------------------------------------------------

/-- The earlier of the best task so far and the next one. It is the step of `earliest?`. -/
def better (time? : Task → Option Nat) (best : Option (Nat × Nat × Nat)) (next : Task × Nat)
    : Option (Nat × Nat × Nat) :=
  match time? next.1, best with
  | none, _ => best
  | some time, none => some (time, next.1.ticket, next.2)
  | some time, some (bestTime, ticket, _) =>
      if time < bestTime ∨ time = bestTime ∧ next.1.ticket < ticket then
        some (time, next.1.ticket, next.2)
      else best

/-- What is chosen is the best so far or one of the tasks that have a time. -/
theorem better_eq_some {time? : Task → Option Nat} {best : Option (Nat × Nat × Nat)}
    {next : Task × Nat} {choice : Nat × Nat × Nat} (h : better time? best next = some choice)
    : best = some choice ∨ (time? next.1).isSome ∧ choice.2.2 = next.2 := by
  unfold better at h
  split at h
  · exact .inl h
  next timed =>
    cases h
    exact .inr ⟨by simp [timed], rfl⟩
  next timed =>
    split at h
    · cases h
      exact .inr ⟨by simp [timed], rfl⟩
    · exact .inl h

/-- A best task, or a next one with a time, leads to a choice. -/
theorem better_isSome {time? : Task → Option Nat} {best : Option (Nat × Nat × Nat)}
    {next : Task × Nat} (h : best.isSome ∨ (time? next.1).isSome)
    : (better time? best next).isSome := by
  unfold better
  split
  next untimed => simpa [untimed] using h
  · rfl
  · split <;> rfl

/-- A choice among tasks is one of them, by induction on the tasks. -/
theorem foldl_better_eq_some (time? : Task → Option Nat) {l : List (Task × Nat)}
    {best : Option (Nat × Nat × Nat)} {choice : Nat × Nat × Nat}
    (h : l.foldl (better time?) best = some choice)
    : best = some choice ∨ ∃ next ∈ l, (time? next.1).isSome ∧ choice.2.2 = next.2 := by
  induction l generalizing best with
  | nil => exact .inl h
  | cons next rest ih =>
      rcases ih h with chosen | ⟨other, member, found⟩
      · rcases better_eq_some chosen with earlier | found
        · exact .inl earlier
        · exact .inr ⟨next, by simp, found⟩
      · exact .inr ⟨other, by simp [member], found⟩

/-- Among tasks of which one has a time there is a choice, by induction on the tasks. -/
theorem foldl_better_isSome (time? : Task → Option Nat) {l : List (Task × Nat)}
    (best : Option (Nat × Nat × Nat))
    (h : best.isSome ∨ ∃ next ∈ l, (time? next.1).isSome)
    : (l.foldl (better time?) best).isSome := by
  induction l generalizing best with
  | nil => simpa using h
  | cons next rest ih =>
      apply ih
      rcases h with some | ⟨other, member, timed⟩
      · exact .inl (better_isSome (.inl some))
      · rcases List.mem_cons.mp member with rfl | later
        · exact .inl (better_isSome (.inr timed))
        · exact .inr ⟨other, later, timed⟩

/-- The earliest task stands at its place and has a time. -/
theorem earliest?_eq_some {p : Pool} {time? : Task → Option Nat} {i : Nat}
    (h : p.earliest? time? = some i)
    : ∃ t, p.tasks[i]? = some t ∧ (time? t).isSome := by
  obtain ⟨choice, chosen, rfl⟩ := Option.map_eq_some_iff.mp h
  rcases foldl_better_eq_some time? chosen with none | ⟨next, member, timed, place⟩
  · cases none
  · exact ⟨next.1, by rw [place]; exact List.mem_zipIdx_iff_getElem?.mp member, timed⟩

theorem earliest?_isSome {p : Pool} (time? : Task → Option Nat) {t : Task}
    (member : t ∈ p.tasks) (timed : (time? t).isSome)
    : ∃ i, p.earliest? time? = some i := by
  obtain ⟨i, found⟩ := List.mem_iff_getElem?.mp member
  have chosen := foldl_better_isSome time? none
    (.inr ⟨(t, i), List.mem_zipIdx_iff_getElem?.mpr found, timed⟩)
  obtain ⟨choice, chosen⟩ := Option.isSome_iff_exists.mp chosen
  exact ⟨choice.2.2, Option.map_eq_some_iff.mpr ⟨choice, chosen, rfl⟩⟩

/-- While a task is unfinished some task moves: with a free permit one that waits, and otherwise
one that writes or pauses, since all permits are then held by tasks that write.
-/
theorem next_advances {f : FanOut} {p : Pool} (permits : p.Permits f) {t : Task}
    (member : t ∈ p.tasks) (unfinished : t.outcome? = none)
    : ∃ q, p.next?.bind (p.advance? f) = some q := by
  have timed : (∃ u ∈ p.tasks, (u.due?).isSome)
      → ∃ q, (p.earliest? Task.due?).bind (p.advance? f) = some q := by
    rintro ⟨u, inside, due⟩
    obtain ⟨i, chosen⟩ := earliest?_isSome Task.due? inside due
    obtain ⟨v, found, due⟩ := earliest?_eq_some chosen
    obtain ⟨q, moved⟩ := advance?_isSome (f := f) found (.inr due)
    exact ⟨q, by rw [chosen]; exact moved⟩
  unfold next?
  split
  next i chosen =>
    split at chosen
    · cases chosen
    next permit =>
      obtain ⟨u, found, waiting⟩ := earliest?_eq_some chosen
      have queued : u.isQueued = true := by
        by_cases queued : u.isQueued
        · exact queued
        · simp [queued] at waiting
      exact advance?_isSome found (.inl ⟨queued, permit⟩)
  next noneChosen =>
    apply timed
    by_cases taken : p.free = 0
    · have positive : 0 < p.tasks.countP Task.isWriting := by
        have := f.workers_pos
        unfold Permits at permits
        omega
      obtain ⟨u, inside, writing⟩ := List.countP_pos_iff.mp positive
      refine ⟨u, inside, ?_⟩
      cases phase : u.phase <;> simp [Task.isWriting, Task.due?, phase] at writing ⊢
    · rw [if_neg taken] at noneChosen
      refine ⟨t, member, ?_⟩
      cases phase : t.phase with
      | queued =>
          obtain ⟨i, chosen⟩ := earliest?_isSome
            (fun t => if t.isQueued then some 0 else none) member (by simp [Task.isQueued, phase])
          exact absurd (chosen.symm.trans noneChosen) (by simp)
      | writing due reply => simp [Task.due?, phase]
      | resting due => simp [Task.due?, phase]
      | finished outcome => simp [Task.outcome?, phase] at unfinished

/-- When no task can move all are finished, since an unfinished one would let some task move. -/
theorem finished_of_stuck {f : FanOut} {p : Pool} (permits : p.Permits f)
    (stuck : ∀ i, p.advance? f i = none)
    : ∀ t ∈ p.tasks, (t.outcome?).isSome := by
  intro t member
  cases unfinished : t.outcome? with
  | some outcome => rfl
  | none =>
      obtain ⟨q, moved⟩ := next_advances permits member unfinished
      obtain ⟨i, _, advanced⟩ := Option.bind_eq_some_iff.mp moved
      exact absurd (advanced.symm.trans (stuck i)) (by simp)

-----------------------------------------------------------------------------------------
-- Every run finishes its tasks
-----------------------------------------------------------------------------------------

/-- The moves that the tasks have before them together. -/
def remaining (f : FanOut) (p : Pool) : Nat :=
  (p.tasks.map (Task.remaining f)).sum

/-- A sum over a list gets smaller with one of its items, by induction on the list. -/
theorem sum_map_set_lt {α : Type} {g : α → Nat} {l : List α} {i : Nat} {a b : α}
    (found : l[i]? = some a) (smaller : g b < g a)
    : ((l.set i b).map g).sum < (l.map g).sum := by
  induction l generalizing i with
  | nil => cases found
  | cons head tail ih =>
      cases i with
      | zero =>
          obtain rfl : head = a := by simpa using found
          simp only [List.set_cons_zero, List.map_cons, List.sum_cons]
          omega
      | succ i =>
          have rest := ih (i := i) (by simpa using found)
          simp only [List.set_cons_succ, List.map_cons, List.sum_cons]
          omega

/-- Every turn leaves its task fewer moves: a pause is only taken while attempts are left. -/
theorem Turn.remaining_lt {f : FanOut} {p q : Pool} {i : Nat} {t : Task}
    {reply? : Option WriteReply} (found : p.tasks[i]? = some t) (turn : Turn f p i t reply? q)
    : q.remaining f < p.remaining f := by
  cases turn with
  | start queued permit =>
      refine sum_map_set_lt found ?_
      simp only [Task.remaining, queued]
      omega
  | @settle due reply writing =>
      refine sum_map_set_lt found ?_
      simp only [Task.remaining, writing]
      rcases phaseAfter_cases f t reply (p.reach due).stores.clock with
        ⟨_, ends⟩ | ⟨_, pauses, left⟩
      · simp only [ends]
        omega
      · simp only [pauses]
        omega
  | wake resting =>
      refine sum_map_set_lt found ?_
      simp only [Task.remaining, resting]
      omega

/-- A task without moves before it is finished. -/
theorem outcome?_isSome_of_remaining {f : FanOut} {t : Task} (h : t.remaining f = 0)
    : (t.outcome?).isSome := by
  cases phase : t.phase <;> simp [Task.remaining, Task.outcome?, phase] at h ⊢

/-- A run with as many steps as moves are left finishes all tasks, by induction on the steps. -/
theorem run_finishes {f : FanOut} {n : Nat} {p : Pool} (permits : p.Permits f)
    (enough : p.remaining f ≤ n)
    : ∀ t ∈ (run f n p).tasks, (t.outcome?).isSome := by
  induction n generalizing p with
  | zero =>
      intro t member
      apply outcome?_isSome_of_remaining (f := f)
      exact List.sum_eq_zero_iff_forall_eq_nat.mp (Nat.le_zero.mp enough) _
        (List.mem_map_of_mem member)
  | succ n ih =>
      unfold run
      split
      next stuck =>
        intro t member
        cases unfinished : t.outcome? with
        | some outcome => rfl
        | none =>
            obtain ⟨q, moved⟩ := next_advances permits member unfinished
            exact absurd (moved.symm.trans stuck) (by simp)
      next q next =>
        obtain ⟨i, _, advanced⟩ := Option.bind_eq_some_iff.mp next
        obtain ⟨t, found, move⟩ := move_of_advance? advanced
        obtain ⟨_, turn⟩ := move.turn
        have less := turn.remaining_lt found
        exact ih (turn.keeps_permits found permits) (by omega)

/-- The steps of a run from the start cover all moves that its tasks can make. -/
theorem remaining_ofWrites_le (f : FanOut) (writes : List CaseWrite) (stores : Stores)
    : (ofWrites f writes stores).remaining f ≤ (ofWrites f writes stores).steps f := by
  have same : (ofWrites f writes stores).tasks.map (Task.remaining f)
      = List.replicate writes.length (3 * (f.retry.maxAttempts - 1) + 2) := by
    apply List.eq_replicate_iff.mpr
    refine ⟨by simp [ofWrites], ?_⟩
    intro m member
    obtain ⟨t, inside, rfl⟩ := List.mem_map.mp member
    obtain ⟨_, _, rfl⟩ := List.mem_map.mp inside
    rfl
  have each : 3 * (f.retry.maxAttempts - 1) + 2 ≤ f.retry.maxAttempts * 3 := by
    have := f.attempts_pos
    omega
  rw [remaining, same, List.sum_replicate_nat]
  calc writes.length * (3 * (f.retry.maxAttempts - 1) + 2)
      ≤ writes.length * (f.retry.maxAttempts * 3) := Nat.mul_le_mul_left _ each
    _ = (ofWrites f writes stores).steps f := by simp [steps, ofWrites, Nat.mul_assoc]

/-- All tasks of a run from the start are finished. -/
theorem run_ofWrites_finishes (f : FanOut) (writes : List CaseWrite) (stores : Stores)
    : ∀ t ∈ (run f ((ofWrites f writes stores).steps f) (ofWrites f writes stores)).tasks,
        (t.outcome?).isSome :=
  run_finishes (permits_ofWrites f writes stores) (remaining_ofWrites_le f writes stores)

end Pool

end CaseGrouping
