import CaseGrouping.Proofs.Store.Cases
import CaseGrouping.Stores

/-! What the calls to the stores leave alone. Calls that only ask change no record, and a commit
that succeeds replaces the one record that was stored at the expected version.
-/

namespace CaseGrouping

-----------------------------------------------------------------------------------------
-- Calls that only ask
-----------------------------------------------------------------------------------------

/-- Loading a record only uses up a fault. -/
theorem MultipleStore.load_leaves (s : MultipleStore) (r : MultipleReference)
    : ∃ fault, (s.load r).2 = { s with loadFault := fault } := by
  unfold load
  split <;> exact ⟨_, rfl⟩

/-- Allocating a reference only uses up a fault or sequence numbers. -/
theorem MultipleStore.allocate_leaves (s : MultipleStore)
    : ∃ fault n, s.allocate.2 = { s with allocateFault := fault, sequence := n } := by
  unfold allocate
  split <;> exact ⟨_, _, rfl⟩

/-- A call that only asks. -/
def Call.isQuestion : Call → Bool
  | .retrieve .. | .search .. | .load .. | .allocate .. => true
  | .submit .. | .commit .. | .enqueue .. => false

/-- Between the stores before and after, nothing but questions was entered in the journal. -/
def Stores.Questioned (before after : Stores) : Prop :=
  ∃ calls, after.journal = before.journal ++ calls ∧ ∀ e ∈ calls, e.call.isQuestion

namespace Stores.Questioned

theorem refl (s : Stores) : s.Questioned s :=
  ⟨[], (List.append_nil _).symm, fun _ none => by cases none⟩

theorem trans {s t u : Stores} (first : s.Questioned t) (next : t.Questioned u)
    : s.Questioned u := by
  obtain ⟨calls, journal, questions⟩ := first
  obtain ⟨more, journal', questions'⟩ := next
  refine ⟨calls ++ more, by rw [journal', journal, List.append_assoc], fun e member => ?_⟩
  exact (List.mem_append.mp member).elim (questions e) (questions' e)

theorem of_note {s t : Stores} {call : Call} (question : call.isQuestion)
    (noted : t.journal = (s.note call).journal)
    : s.Questioned t := by
  refine ⟨[⟨s.clock, call⟩], noted, fun e member => ?_⟩
  rw [List.mem_singleton.mp member]
  exact question

end Stores.Questioned

/-- Between the stores before and after, nothing but questions was asked: they may use up faults
of asking and sequence numbers, and they are noted in the journal.
-/
structure Stores.Asked (before after : Stores) : Prop where
  cases : after.cases.records = before.cases.records
  writeFaults : after.cases.writeFaults = before.cases.writeFaults
  crashing : after.cases.crashing = before.cases.crashing
  retrieveFaults : after.cases.retrieveFaults = before.cases.retrieveFaults
  searchFault : before.cases.searchFault = none → after.cases.searchFault = none
  searchAnswer : before.cases.searchAnswer = none → after.cases.searchAnswer = none
  multiples : after.multiples.records = before.multiples.records
  commitFault : after.multiples.commitFault = before.multiples.commitFault
  hooks : after.multiples.hooks = before.multiples.hooks
  queue : after.queue = before.queue
  clock : after.clock = before.clock
  questioned : before.Questioned after

namespace Stores.Asked

theorem refl (s : Stores) : s.Asked s :=
  ⟨rfl, rfl, rfl, rfl, id, id, rfl, rfl, rfl, rfl, rfl, .refl s⟩

theorem trans {s t u : Stores} (first : s.Asked t) (next : t.Asked u) : s.Asked u :=
  ⟨next.cases.trans first.cases, next.writeFaults.trans first.writeFaults,
    next.crashing.trans first.crashing, next.retrieveFaults.trans first.retrieveFaults,
    next.searchFault ∘ first.searchFault, next.searchAnswer ∘ first.searchAnswer,
    next.multiples.trans first.multiples, next.commitFault.trans first.commitFault,
    next.hooks.trans first.hooks, next.queue.trans first.queue, next.clock.trans first.clock,
    first.questioned.trans next.questioned⟩

theorem retrieve (scope : CaseScope) (r : CaseReference) (s : Stores)
    : s.Asked (Stores.retrieve scope r s).2 :=
  ⟨rfl, rfl, rfl, rfl, id, id, rfl, rfl, rfl, rfl, rfl, .of_note rfl rfl⟩

theorem search (scope : CaseScope) (criteria : SearchCriteria) (s : Stores)
    : s.Asked (Stores.search scope criteria s).2 := by
  have cases : ∃ fault answer,
      (s.cases.search criteria).2 = { s.cases with searchFault := fault, searchAnswer := answer }
      ∧ (s.cases.searchFault = none → fault = none)
      ∧ (s.cases.searchAnswer = none → answer = none) := by
    unfold CaseStore.search
    split
    · exact ⟨_, _, rfl, id, fun _ => rfl⟩
    · exact ⟨_, _, rfl, fun _ => rfl, id⟩
    · exact ⟨_, _, rfl, id, id⟩
  obtain ⟨fault, answer, cases, quiet, unset⟩ := cases
  have after : (Stores.search scope criteria s).2.cases = (s.cases.search criteria).2 := rfl
  rw [cases] at after
  exact ⟨by rw [after], by rw [after], by rw [after], by rw [after], by rw [after]; exact quiet,
    by rw [after]; exact unset, rfl, rfl, rfl, rfl, rfl, .of_note rfl rfl⟩

theorem load (scope : CaseScope) (r : MultipleReference) (s : Stores)
    : s.Asked (Stores.load scope r s).2 := by
  obtain ⟨fault, multiples⟩ := s.multiples.load_leaves r
  have after : (Stores.load scope r s).2.multiples = (s.multiples.load r).2 := rfl
  rw [multiples] at after
  exact ⟨rfl, rfl, rfl, rfl, id, id, by rw [after], by rw [after], by rw [after], rfl, rfl,
    .of_note rfl rfl⟩

theorem allocate (scope : CaseScope) (s : Stores)
    : s.Asked (Stores.allocate scope s).2 := by
  obtain ⟨fault, n, multiples⟩ := s.multiples.allocate_leaves
  have after : (Stores.allocate scope s).2.multiples = s.multiples.allocate.2 := rfl
  rw [multiples] at after
  exact ⟨rfl, rfl, rfl, rfl, id, id, by rw [after], by rw [after], by rw [after], rfl, rfl,
    .of_note rfl rfl⟩

theorem accepts {s t : Stores} (asked : s.Asked t) {r : CaseReference}
    (accepts : s.cases.Accepts r)
    : t.cases.Accepts r := by
  refine ⟨?_, ?_, ?_⟩
  · rw [asked.cases]
    exact accepts.stored
  · rw [CaseStore.pending, asked.writeFaults]
    exact accepts.free
  · rw [asked.crashing]
    exact accepts.steady

theorem unhindered {s t : Stores} (asked : s.Asked t) {r : CaseReference}
    (unhindered : s.cases.Unhindered r)
    : t.cases.Unhindered r := by
  refine ⟨?_, ?_⟩
  · rw [CaseStore.pending, asked.writeFaults]
    exact unhindered.free
  · rw [asked.crashing]
    exact unhindered.steady

theorem keyed {s t : Stores} (asked : s.Asked t) (keyed : s.cases.Keyed) : t.cases.Keyed := by
  unfold CaseStore.Keyed
  rw [asked.cases]
  exact keyed

end Stores.Asked

theorem Stores.load_eq_ok {scope : CaseScope} {r : MultipleReference} {s t : Stores}
    {record : Option Multiple} (h : Stores.load scope r s = (.ok record, t))
    : record = s.multiples.records.get? r := by
  have answer : (s.multiples.load r).1 = .ok record := congrArg Prod.fst h
  unfold MultipleStore.load at answer
  split at answer
  · cases answer
  · exact (Except.ok.inj answer).symm

-----------------------------------------------------------------------------------------
-- Commits
-----------------------------------------------------------------------------------------

namespace MultipleStore

variable {s s' : MultipleStore} {m m' : Multiple} {expected : Option UInt64}

/-- Every record is stored under its own reference and with a version. -/
def Filed (s : MultipleStore) : Prop :=
  ∀ r m, s.records.get? r = some m → m.reference = some r ∧ ∃ v, m.version = some v

/-- Among filed records only an absent one has no version. -/
theorem Filed.version?_eq_none (filed : s.Filed) {r : MultipleReference}
    (h : s.version? r = none)
    : s.records.get? r = none := by
  cases found : s.records.get? r with
  | none => rfl
  | some m =>
      obtain ⟨_, v, version⟩ := filed r m found
      simp [version?, found, version] at h

/-- A stored record carries the version that is stored under its reference. -/
theorem version?_of_get? {r : MultipleReference} (h : s.records.get? r = some m)
    : s.version? r = m.version := by
  rw [version?, h, Option.bind_some]

/-- Filed records stay filed when one is stored with a version under its own reference. -/
theorem Filed.insert (filed : s.Filed) {r : MultipleReference} (own : m.reference = some r)
    (v : UInt64)
    : Filed { s with records := s.records.insert r (m.withVersion v) } := by
  intro q n found
  simp only [Register.get?_insert] at found
  split at found
  next same =>
    cases found
    exact ⟨own.trans (congrArg some same.symm), v, rfl⟩
  next => exact filed q n found

/-- A swap that succeeds stores the record with the version after the expected one, which was
stored. All other records are as they were.
-/
theorem compareAndSwap_eq_ok (h : s.compareAndSwap m expected = (.ok m', s'))
    : ∃ r,
        m.reference = some r
        ∧ s.version? r = expected
        ∧ m' = m.withVersion (successor expected)
        ∧ s' = { s with records := s.records.insert r m' } := by
  unfold compareAndSwap at h
  split at h
  · cases h
  · cases h
  next r _ own =>
    dsimp only at h
    split at h
    next fresh =>
      rw [fresh] at h
      cases h
      exact ⟨r, own, fresh, rfl, rfl⟩
    · cases h

/-- A swap uses up the fault that awaits it, so none is left. -/
theorem commitFault_compareAndSwap (s : MultipleStore) (m : Multiple) (expected : Option UInt64)
    : (s.compareAndSwap m expected).2.commitFault = none := by
  unfold compareAndSwap
  split
  · rfl
  next free _ => exact free
  next free _ =>
    dsimp only
    split <;> exact free

/-- Without a fault a record is stored if its reference is at the expected version. -/
theorem compareAndSwap_of_fresh {r : MultipleReference} (free : s.commitFault = none)
    (own : m.reference = some r) (fresh : s.version? r = expected)
    : s.compareAndSwap m expected
      = (.ok (m.withVersion (successor expected)),
        { s with records := s.records.insert r (m.withVersion (successor expected)) }) := by
  unfold compareAndSwap
  rw [free, own]
  dsimp only
  rw [if_pos fresh, fresh]

theorem compareAndSwap_eq_error {e : MultipleStoreError}
    (h : s.compareAndSwap m expected = (.error e, s'))
    : s'.records = s.records ∧ s'.hooks = s.hooks := by
  unfold compareAndSwap at h
  split at h
  · cases h
    exact ⟨rfl, rfl⟩
  · cases h
    exact ⟨rfl, rfl⟩
  · dsimp only at h
    split at h
    · cases h
    · cases h
      exact ⟨rfl, rfl⟩

/-- Without anything set up to happen first, a commit is a swap. -/
theorem commit_eq_compareAndSwap (hooks : s.hooks = [])
    : s.commit m expected = s.compareAndSwap m expected := by
  unfold commit
  rw [hooks]
  obtain ⟨_, _, _, _, _, _, _⟩ := s
  cases hooks
  rfl

theorem Filed.commit (filed : s.Filed) (hooks : s.hooks = [])
    : (s.commit m expected).2.Filed ∧ (s.commit m expected).2.hooks = [] := by
  rw [commit_eq_compareAndSwap hooks]
  cases swap : s.compareAndSwap m expected with
  | mk answer s' =>
      cases answer with
      | error e =>
          obtain ⟨records, same⟩ := compareAndSwap_eq_error swap
          refine ⟨?_, same.trans hooks⟩
          unfold Filed
          rw [records]
          exact filed
      | ok m' =>
          obtain ⟨r, own, _, rfl, rfl⟩ := compareAndSwap_eq_ok swap
          exact ⟨filed.insert own _, hooks⟩

end MultipleStore

/-- What a commit that succeeds does to the stores: the record under its reference was at the
expected version, and is replaced by the committed one.
-/
structure Stores.Committed (m : Multiple) (expected : Option UInt64) (r : MultipleReference)
    (before : Stores) (m' : Multiple) (after : Stores)
    : Prop where
  own : m.reference = some r
  fresh : before.multiples.version? r = expected
  record : m' = m.withVersion (MultipleStore.successor expected)
  stored : after.multiples.records = before.multiples.records.insert r m'
  hooks : after.multiples.hooks = []
  free : after.multiples.commitFault = none
  cases : after.cases = before.cases

theorem Stores.commit_eq_ok {scope : CaseScope} {m m' : Multiple} {expected : Option UInt64}
    {s t : Stores} (hooks : s.multiples.hooks = [])
    (h : Stores.commit scope m expected s = (.ok m', t))
    : ∃ r, Committed m expected r s m' t := by
  have answer : (s.multiples.commit m expected).1 = .ok m' := congrArg Prod.fst h
  have after : t.multiples = (s.multiples.commit m expected).2 := by
    have := congrArg (fun x => x.2.multiples) h
    exact this.symm
  have cases : t.cases = s.cases := by
    have := congrArg (fun x => x.2.cases) h
    exact this.symm
  rw [MultipleStore.commit_eq_compareAndSwap hooks] at answer after
  have swap : s.multiples.compareAndSwap m expected = (.ok m', t.multiples) :=
    Prod.ext answer after.symm
  obtain ⟨r, own, fresh, record, swapped⟩ := MultipleStore.compareAndSwap_eq_ok swap
  exact ⟨r, own, fresh, record, congrArg MultipleStore.records swapped,
    (congrArg MultipleStore.hooks swapped).trans hooks,
    (congrArg (fun x => x.2.commitFault) swap).symm.trans
      (MultipleStore.commitFault_compareAndSwap s.multiples m expected), cases⟩

end CaseGrouping
