import CaseGrouping.Stores

/-! What can be seen of a stretch of work on the stores: the calls, the time it took, and the
records that are not as they were.
-/

namespace CaseGrouping

namespace JournalEntry

/-- The case that a write is for. -/
def written? (e : JournalEntry) : Option CaseReference :=
  match e.call with
  | .submit _ w => some w.case
  | _ => none

/-- Two writes of the same time. -/
def areTogether (a b : JournalEntry) : Bool :=
  a.time = b.time && a.written?.isSome && b.written?.isSome

/-- The case of one write does not come after that of another. -/
def inCaseOrder (a b : JournalEntry) : Bool :=
  match a.written?, b.written? with
  | some x, some y => !(y < x)
  | _, _ => true

/-- The entries with writes of the same time in the order of their cases. -/
def sortTogether (entries : List JournalEntry) : List JournalEntry :=
  (entries.splitBy areTogether).flatMap fun run => run.mergeSort inCaseOrder

end JournalEntry

/-- What was seen of a stretch of work. Times count from its start. -/
structure Observation where
  calls : List JournalEntry
  elapsed : Nat
  cases : List SingleCase
  multiples : List Multiple
  queued : Nat

namespace Observation

/-- What is seen between two states of the stores. Where writes take time, those that are sent at
the same time have no order of their own, and a zero that changes its sign is no change of a case.
-/
def between (before after : Stores) : Observation :=
  let calls := (after.journal.drop before.journal.length).map fun e =>
    { e with time := e.time - before.clock }
  { calls := if after.latency = 0 then calls else JournalEntry.sortTogether calls
    elapsed := after.clock - before.clock
    cases := before.cases.records.changesSince SingleCase.withPlainZeros after.cases.records
    multiples := before.multiples.records.changesSince id after.multiples.records
    queued := after.queue.jobs.length }

end Observation

end CaseGrouping
