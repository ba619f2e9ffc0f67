import CaseGrouping.Change
import CaseGrouping.Duration
import CaseGrouping.SearchCriteria
import CaseGrouping.Store.Error

/-! The store of single cases, with the faults it has been set up to show.
A write either is answered or brings down the worker that asked for it.
-/

namespace CaseGrouping

/-- An error that writes to one case meet: a number of times, or always when there is none. -/
structure WriteFault where
  error : CaseStoreError
  remaining : Option Nat
  deriving DecidableEq

/-- The error that the next write meets, and what is left of the fault after it. -/
def WriteFault.next? (f : WriteFault) : Option (CaseStoreError × WriteFault) :=
  match f.remaining with
  | none => some (f.error, f)
  | some 0 => none
  | some (n + 1) => some (f.error, { f with remaining := some n })

/-- What comes back from a write. -/
inductive WriteReply where
  | answered (answer : Except CaseStoreError SingleCase)
  /-- The worker is lost before the store has seen the write. -/
  | crashed

/-- How long a reply takes: an answer is waited for as long as the latency, the loss of a worker
takes no time.
-/
def WriteReply.delay (latency : Nat) : WriteReply → Nat
  | .answered _ => Duration.waited latency
  | .crashed => 0

/-- The stored cases by reference, the writes that arrived, and the faults to come. -/
structure CaseStore where
  records : Register CaseReference SingleCase := ∅
  submissions : List CaseWrite := []
  writeFaults : Register CaseReference WriteFault := ∅
  /-- Cases whose writes bring down their worker. -/
  crashing : List CaseReference := []
  retrieveFaults : Register CaseReference CaseStoreError := ∅
  searchFault : Option CaseStoreError := none
  /-- The cases that the next search finds, whatever is stored. -/
  searchAnswer : Option (List SingleCase) := none

namespace CaseStore

/-- The store with a case, in place of the one under its reference. -/
def insert (s : CaseStore) (c : SingleCase) : CaseStore :=
  { s with records := s.records.insert c.reference c }

/-- The store of a list of cases. -/
def ofList (cases : List SingleCase) : CaseStore :=
  cases.foldl insert {}

/-- The store in which writes to a case meet a fault. -/
def failWrites (s : CaseStore) (case : CaseReference) (fault : WriteFault) : CaseStore :=
  { s with writeFaults := s.writeFaults.insert case fault }

/-- The error for a case that is not stored. -/
def missing (case : CaseReference) : CaseStoreError :=
  .notFound case.text

/-- The stored case. -/
def retrieve (s : CaseStore) (case : CaseReference) : Except CaseStoreError SingleCase :=
  match s.retrieveFaults.get? case with
  | some e => .error e
  | none =>
      match s.records.get? case with
      | some c => .ok c
      | none => .error (missing case)

/-- The stored cases that a search is for, in the order of their references. -/
def found (s : CaseStore) (criteria : SearchCriteria) : List SingleCase :=
  s.records.values.filter criteria.accepts

/-- Searches the store: an answer that was set up comes first, then an error. -/
def search (s : CaseStore) (criteria : SearchCriteria)
    : Except CaseStoreError (List SingleCase) × CaseStore :=
  match s.searchAnswer, s.searchFault with
  | some cases, _ => (.ok cases, { s with searchAnswer := none })
  | none, some e => (.error e, { s with searchFault := none })
  | none, none => (.ok (s.found criteria), s)

/-- Writes to the stored case, unless a fault is met. -/
def write (s : CaseStore) (w : CaseWrite) : Except CaseStoreError SingleCase × CaseStore :=
  match (s.writeFaults.get? w.case).bind WriteFault.next? with
  | some (e, fault) => (.error e, s.failWrites w.case fault)
  | none =>
      match s.records.get? w.case with
      | none => (.error (missing w.case), s)
      | some c =>
          let changed := w.change.apply c
          (.ok changed, { s with records := s.records.insert w.case changed })

/-- Takes a write: notes that it arrived and answers it. -/
def submit (s : CaseStore) (w : CaseWrite) : WriteReply × CaseStore :=
  if w.case ∈ s.crashing then (.crashed, s)
  else
    let (answer, s) := { s with submissions := s.submissions ++ [w] }.write w
    (.answered answer, s)

end CaseStore

end CaseGrouping
