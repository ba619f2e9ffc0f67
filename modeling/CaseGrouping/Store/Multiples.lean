import CaseGrouping.Multiple
import CaseGrouping.Store.Error

/-! The store of multiples, with versioned commits and the faults it has been set up to show.
A commit succeeds only at the version that is stored; the first version of a record is 1.
-/

namespace CaseGrouping

/-- What happens to one commit before the store sees it. -/
inductive CommitHook where
  /-- Another client commits the stored record of a multiple over itself first. -/
  | concurrent (multiple : MultipleReference)
  /-- The commit is answered with an error instead. -/
  | refuse (error : MultipleStoreError)
  deriving DecidableEq

/-- The stored multiples by reference, the last sequence number given out, the number of the
office, and the faults to come.
-/
structure MultipleStore where
  records : Register MultipleReference Multiple := ∅
  sequence : Nat := 0
  office : Nat := 60
  commitFault : Option MultipleStoreError := none
  loadFault : Option MultipleStoreError := none
  allocateFault : Option MultipleStoreError := none
  /-- What happens to the commits to come, one by one. -/
  hooks : List (Option CommitHook) := []

namespace MultipleStore

/-- Stores a record at version 1, whatever is stored under its reference. -/
def seed (s : MultipleStore) (m : Multiple)
    : Except MultipleStoreError (Multiple × MultipleStore) :=
  match m.reference with
  | none => .error .missingReference
  | some r =>
      let stored := m.withVersion 1
      .ok (stored, { s with records := s.records.insert r stored })

/-- The stored record, if any. -/
def load (s : MultipleStore) (r : MultipleReference)
    : Except MultipleStoreError (Option Multiple) × MultipleStore :=
  match s.loadFault with
  | some e => (.error e, { s with loadFault := none })
  | none => (.ok (s.records.get? r), s)

/-- The first sequence number after `n` whose reference is not stored, passing over at most
`steps` numbers.
-/
def nextSequence (s : MultipleStore) : Nat → Nat → Nat
  | 0, n => n + 1
  | steps + 1, n =>
      if s.records.contains (.ofSequence s.office (n + 1)) then s.nextSequence steps (n + 1)
      else n + 1

/-- Gives out a reference that is not stored. No more numbers are passed over than there are
stored records.
-/
def allocate (s : MultipleStore) : Except MultipleStoreError MultipleReference × MultipleStore :=
  match s.allocateFault with
  | some e => (.error e, { s with allocateFault := none })
  | none =>
      let n := s.nextSequence s.records.size s.sequence
      (.ok (.ofSequence s.office n), { s with sequence := n })

/-- The version that is stored under a reference. -/
def version? (s : MultipleStore) (r : MultipleReference) : Option UInt64 :=
  (s.records.get? r).bind (·.version)

/-- The version of a record that replaces one of a given version. -/
def successor : Option UInt64 → UInt64
  | none => 1
  | some v => v + 1

/-- Stores a record if the stored version is the expected one. -/
def compareAndSwap (s : MultipleStore) (m : Multiple) (expected : Option UInt64)
    : Except MultipleStoreError Multiple × MultipleStore :=
  match s.commitFault, m.reference with
  | some e, _ => (.error e, { s with commitFault := none })
  | none, none => (.error .missingReference, s)
  | none, some r =>
      let actual := s.version? r
      if actual = expected then
        let committed := m.withVersion (successor actual)
        (.ok committed, { s with records := s.records.insert r committed })
      else (.error (.concurrentModification r.text expected actual), s)

/-- Another client commits the stored record over itself; its answer is nobody's here. -/
def touch (s : MultipleStore) (r : MultipleReference) : MultipleStore :=
  match s.records.get? r with
  | none => s
  | some m => (s.compareAndSwap m m.version).2

/-- Takes a commit, after what has been set up to happen first. -/
def commit (s : MultipleStore) (m : Multiple) (expected : Option UInt64)
    : Except MultipleStoreError Multiple × MultipleStore :=
  let s' := { s with hooks := s.hooks.tail }
  match s.hooks.head?.join with
  | none => s'.compareAndSwap m expected
  | some (.concurrent r) => (s'.touch r).compareAndSwap m expected
  | some (.refuse e) => (.error e, s')

end MultipleStore

end CaseGrouping
