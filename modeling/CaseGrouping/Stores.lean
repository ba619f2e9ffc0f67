import CaseGrouping.CaseScope
import CaseGrouping.Store.Cases
import CaseGrouping.Store.Multiples
import CaseGrouping.Store.Queue

/-! The stores and the queue that rounds run against, with a clock and a journal of all calls.
Every call is entered in the journal at the time it is made, whatever its answer.
-/

namespace CaseGrouping

/-- A call to one of the stores or to the queue. -/
inductive Call where
  | retrieve (caseType jurisdiction : String) (case : CaseReference)
  | search (caseType : String) (criteria : SearchCriteria)
  | submit (caseType : String) (write : CaseWrite)
  | load (caseType : String) (multiple : MultipleReference)
  | allocate (caseType : String)
  | commit (caseType : String) (record : Multiple) (expected : Option UInt64)
  | enqueue (job : Job)

/-- A call with the time it was made at, in milliseconds. -/
structure JournalEntry where
  time : Nat
  call : Call

/-- The stores, the queue, the clock, and what has been called so far. The latency is the time
that a write takes, in milliseconds like the clock.
-/
structure Stores where
  cases : CaseStore := {}
  multiples : MultipleStore := {}
  queue : UpdateQueue := {}
  latency : Nat := 0
  clock : Nat := 0
  journal : List JournalEntry := []

namespace Stores

/-- Enters a call in the journal. -/
def note (s : Stores) (call : Call) : Stores :=
  { s with journal := s.journal ++ [⟨s.clock, call⟩] }

/-- Retrieves one case. -/
def retrieve (scope : CaseScope) (case : CaseReference)
    : StateM Stores (Except CaseStoreError SingleCase) := fun s =>
  (s.cases.retrieve case, s.note (.retrieve scope.singleType scope.jurisdiction case))

/-- Searches for cases. -/
def search (scope : CaseScope) (criteria : SearchCriteria)
    : StateM Stores (Except CaseStoreError (List SingleCase)) := fun s =>
  let (answer, cases) := s.cases.search criteria
  (answer, { s.note (.search scope.singleType criteria) with cases })

/-- Sends a write to its case; the answer is there once the latency has passed. -/
def submit (caseType : String) (w : CaseWrite) : StateM Stores WriteReply := fun s =>
  let (reply, cases) := s.cases.submit w
  (reply, { s.note (.submit caseType w) with cases })

/-- Sends a write and waits for its reply. -/
def submitAndWait (caseType : String) (w : CaseWrite) : StateM Stores WriteReply := do
  let reply ← submit caseType w
  modify fun s => { s with clock := s.clock + reply.delay s.latency }
  return reply

/-- Loads a multiple. -/
def load (scope : CaseScope) (multiple : MultipleReference)
    : StateM Stores (Except MultipleStoreError (Option Multiple)) := fun s =>
  let (answer, multiples) := s.multiples.load multiple
  (answer, { s.note (.load scope.multipleType multiple) with multiples })

/-- Asks for a fresh reference. -/
def allocate (scope : CaseScope)
    : StateM Stores (Except MultipleStoreError MultipleReference) := fun s =>
  let (answer, multiples) := s.multiples.allocate
  (answer, { s.note (.allocate scope.multipleType) with multiples })

/-- Commits a multiple at an expected version. -/
def commit (scope : CaseScope) (record : Multiple) (expected : Option UInt64)
    : StateM Stores (Except MultipleStoreError Multiple) := fun s =>
  let (answer, multiples) := s.multiples.commit record expected
  (answer, { s.note (.commit scope.multipleType record expected) with multiples })

/-- Hands a job to the queue. -/
def enqueue (job : Job) : StateM Stores (Except QueueError QueueAck) := fun s =>
  let (answer, queue) := s.queue.enqueue job
  (answer, { s.note (.enqueue job) with queue })

/-- The time of day, for stamping jobs. -/
def now : StateM Stores Timestamp := fun s =>
  (.ofMillis s.clock, s)

/-- Lets a job take effect on the stored cases that it addresses. -/
def replay (s : Stores) (job : Job) : Stores :=
  { s with
    cases := job.cases.foldl
      (fun cases r =>
        match cases.records.get? r with
        | some c => cases.insert (job.apply c)
        | none => cases)
      s.cases }

/-- Hands the queued jobs to a consumer that gets all of them, in order, a number of times;
returns how many jobs there were.
-/
def deliver (times : Nat) : StateM Stores Nat := fun s =>
  let (jobs, queue) := s.queue.drain
  (jobs.length, (List.replicate times jobs).flatten.foldl replay { s with queue })

end Stores

end CaseGrouping
