import CaseGrouping.FanOut.Basic
import CaseGrouping.Stores

/-! Writes on their way through the pool.
Every write is a task that goes through phases by itself; a task moves on whenever it is picked,
and a schedule is the list of picks. A permit is held while a write is under way, not while its
task pauses before the next attempt.
-/

namespace CaseGrouping

/-- How far a task has come. Times are those of the clock. -/
inductive Phase where
  /-- Waits for a permit. -/
  | queued
  /-- Holds a permit until the reply arrives. -/
  | writing (due : Nat) (reply : WriteReply)
  /-- Pauses before the next attempt. -/
  | resting (due : Nat)
  | finished (outcome : Except Failure SingleCase)

/-- One write with its attempt, counted from one, its phase, and the ticket it drew on entering
the phase.
-/
structure Task where
  write : CaseWrite
  ticket : Nat
  attempt : Nat := 1
  phase : Phase := .queued

namespace Task

/-- The task waits for a permit. -/
def isQueued (t : Task) : Bool :=
  match t.phase with
  | .queued => true
  | _ => false

/-- The task holds a permit. -/
def isWriting (t : Task) : Bool :=
  match t.phase with
  | .writing .. => true
  | _ => false

/-- The time at which a reply arrives or a pause ends. -/
def due? (t : Task) : Option Nat :=
  match t.phase with
  | .writing due _ => some due
  | .resting due => some due
  | _ => none

/-- The outcome of a finished task. -/
def outcome? (t : Task) : Option (Except Failure SingleCase) :=
  match t.phase with
  | .finished outcome => some outcome
  | _ => none

end Task

/-- The tasks in the order of their writes, the free permits, the next ticket, and the stores as
they are by now.
-/
structure Pool where
  tasks : List Task
  free : Nat
  tickets : Nat
  stores : Stores

namespace Pool

-----------------------------------------------------------------------------------------
-- Moves of a task
-----------------------------------------------------------------------------------------

/-- The pool at the start: all tasks wait, in order, and all permits are free. -/
def ofWrites (f : FanOut) (writes : List CaseWrite) (stores : Stores) : Pool where
  tasks := writes.zipIdx.map fun (write, ticket) => { write, ticket }
  free := f.workers
  tickets := writes.length
  stores := stores

/-- Lets the task at a place enter a phase. -/
def enter (p : Pool) (i : Nat) (t : Task) (phase : Phase) : Pool :=
  { p with
    tasks := p.tasks.set i { t with phase, ticket := p.tickets }
    tickets := p.tickets + 1 }

/-- The clock moves on to a time, never back. -/
def reach (p : Pool) (time : Nat) : Pool :=
  { p with stores := { p.stores with clock := max p.stores.clock time } }

/-- A task takes a permit and sends its write. -/
def start (f : FanOut) (p : Pool) (i : Nat) (t : Task) : Pool :=
  let (reply, stores) := Stores.submit f.caseType t.write p.stores
  let due := stores.clock + reply.delay stores.latency
  { p with free := p.free - 1, stores }.enter i t (.writing due reply)

/-- The reason given for a write whose worker was lost. -/
def crashReason : String :=
  "worker task failed: <panic>"

/-- The phase after a reply: another attempt follows an error that may pass, while there are
attempts left.
-/
def phaseAfter (f : FanOut) (t : Task) (reply : WriteReply) (clock : Nat) : Phase :=
  match reply with
  | .crashed => .finished (.error ⟨t.write.case, crashReason⟩)
  | .answered (.ok c) => .finished (.ok c)
  | .answered (.error e) =>
      if e.isRetryable && t.attempt < f.retry.maxAttempts then
        .resting (clock + Duration.waited (f.retry.backoff t.attempt).millis)
      else .finished (.error ⟨t.write.case, e.message⟩)

/-- A task gives its permit back when its reply arrives. -/
def settle (f : FanOut) (p : Pool) (i : Nat) (t : Task) (due : Nat) (reply : WriteReply) : Pool :=
  let p := p.reach due
  { p with free := p.free + 1 }.enter i t (phaseAfter f t reply p.stores.clock)

/-- A task queues again after its pause. -/
def wake (p : Pool) (i : Nat) (t : Task) (due : Nat) : Pool :=
  (p.reach due).enter i { t with attempt := t.attempt + 1 } .queued

/-- Moves the task at a place on by one phase; `none` when it cannot move. -/
def advance? (f : FanOut) (p : Pool) (i : Nat) : Option Pool :=
  match p.tasks[i]? with
  | none => none
  | some t =>
      match t.phase with
      | .queued => if p.free = 0 then none else some (p.start f i t)
      | .writing due reply => some (p.settle f i t due reply)
      | .resting due => some (p.wake i t due)
      | .finished _ => none

-----------------------------------------------------------------------------------------
-- The order of moves when time passes by itself
-----------------------------------------------------------------------------------------

/-- The place of the task with the least time, of several the one with the least ticket. -/
def earliest? (p : Pool) (time? : Task → Option Nat) : Option Nat :=
  let better (best : Option (Nat × Nat × Nat)) (next : Task × Nat) : Option (Nat × Nat × Nat) :=
    match time? next.1, best with
    | none, _ => best
    | some time, none => some (time, next.1.ticket, next.2)
    | some time, some (bestTime, ticket, _) =>
        if time < bestTime ∨ time = bestTime ∧ next.1.ticket < ticket then
          some (time, next.1.ticket, next.2)
        else best
  (p.tasks.zipIdx.foldl better none).map (·.2.2)

/-- The task that waits longest for a permit. -/
def firstQueued? (p : Pool) : Option Nat :=
  p.earliest? fun t => if t.isQueued then some 0 else none

/-- The task that moves next: while a permit is free the one that has waited longest, otherwise
the one whose time comes first.
-/
def next? (p : Pool) : Option Nat :=
  match if p.free = 0 then none else p.firstQueued? with
  | some i => some i
  | none => p.earliest? Task.due?

/-- Moves tasks on until none can move or the steps are used up. -/
def run (f : FanOut) : Nat → Pool → Pool
  | 0, p => p
  | steps + 1, p =>
      match p.next?.bind (p.advance? f) with
      | none => p
      | some p => run f steps p

/-- Every attempt takes three steps at most: it starts, it ends, and a pause ends. -/
def steps (f : FanOut) (p : Pool) : Nat :=
  p.tasks.length * f.retry.maxAttempts * 3

end Pool

end CaseGrouping
