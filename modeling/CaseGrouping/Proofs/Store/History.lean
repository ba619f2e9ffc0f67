import CaseGrouping.Proofs.Store.Calls
import Mathlib.Data.List.Induction

/-! The history of a store of multiples that serves the requests of its clients one by one, whoever
sends them. Every reference has one line of records, numbered from 1, of which the last is stored.
-/

namespace CaseGrouping

namespace MultipleStore

/-- What a client asks of the store, or what is set up to happen to the next commit. -/
inductive Request where
  | load (reference : MultipleReference)
  | allocate
  | commit (multiple : Multiple) (expected : Option UInt64)
  | failCommit (error : MultipleStoreError)

/-- The request may store a record. -/
def Request.isCommit : Request → Bool
  | .commit .. => true
  | .load _ | .allocate | .failCommit _ => false

/-- The store once it has served a request. -/
def serve (s : MultipleStore) : Request → MultipleStore
  | .load r => (s.load r).2
  | .allocate => s.allocate.2
  | .commit m expected => (s.commit m expected).2
  | .failCommit e => { s with commitFault := some e }

/-- The store once it has served requests in their order. -/
def after (s : MultipleStore) (requests : List Request) : MultipleStore :=
  requests.foldl serve s

/-- The record that a request is answered to have stored. -/
def stored? (s : MultipleStore) : Request → Option Multiple
  | .commit m expected => (s.commit m expected).1.toOption
  | .load _ | .allocate | .failCommit _ => none

/-- The records that requests store under a reference, in the order of the requests. -/
def history (s : MultipleStore) (r : MultipleReference) : List Request → List Multiple
  | [] => []
  | request :: rest =>
      ((s.stored? request).filter fun m => m.reference = some r).toList
        ++ (s.serve request).history r rest

/-- The error that awaits the next commit: the last one set up since there was a commit. -/
def injected? (past : List Request) : Option MultipleStoreError :=
  past.foldl (fun pending request =>
    match request with
    | .commit .. => none
    | .failCommit e => some e
    | .load _ | .allocate => pending) none

/-- The store without records that gives out references under the number of an office. -/
def vacant (office : Nat) : MultipleStore :=
  { office }

variable {s : MultipleStore} {past later : List Request} {request : Request}
  {r : MultipleReference}

-----------------------------------------------------------------------------------------
-- Requests one after the other
-----------------------------------------------------------------------------------------

theorem after_append (s : MultipleStore) (past later : List Request)
    : s.after (past ++ later) = (s.after past).after later :=
  List.foldl_append

theorem history_append (s : MultipleStore) (r : MultipleReference) (past later : List Request)
    : s.history r (past ++ later) = s.history r past ++ (s.after past).history r later := by
  induction past generalizing s with
  | nil => rfl
  | cons request rest ih =>
      simp only [List.cons_append, history, ih, List.append_assoc]
      rfl

/-- A commit that succeeds adds its record to the history of its own reference. -/
theorem history_commit {m m' : Multiple} {expected : Option UInt64} {q : MultipleReference}
    (succeeds : ((s.after past).commit m expected).1 = .ok m') (own : m'.reference = some r)
    : s.history q (past ++ [.commit m expected])
      = s.history q past ++ if q = r then [m'] else [] := by
  rw [history_append, history, stored?, succeeds]
  by_cases here : q = r
  · simp [here, own, Except.toOption, history]
  · simp [here, own, Except.toOption, history, Ne.symm here]

/-- No request stores more than one record. -/
theorem length_history_le (s : MultipleStore) (r : MultipleReference) (requests : List Request)
    : (s.history r requests).length ≤ requests.countP Request.isCommit := by
  induction requests generalizing s with
  | nil => exact Nat.zero_le _
  | cons request rest ih =>
      have first : ((s.stored? request).filter fun m => m.reference = some r).toList.length
          ≤ if request.isCommit then 1 else 0 := by
        cases request with
        | commit m expected => exact Option.length_toList_le
        | load | allocate | failCommit => exact Nat.zero_le _
      simp only [history, List.length_append, List.countP_cons]
      have := ih (s.serve request)
      omega

-----------------------------------------------------------------------------------------
-- One commit
-----------------------------------------------------------------------------------------

/-- A commit succeeds if and only if no error awaits it and its expected version is stored. -/
theorem commit_succeeds_iff (hooks : s.hooks = []) (m : Multiple) (expected : Option UInt64)
    : (∃ m', (s.commit m expected).1 = .ok m')
      ↔ s.commitFault = none ∧ ∃ r, m.reference = some r ∧ s.version? r = expected := by
  rw [commit_eq_compareAndSwap hooks]
  constructor
  · rintro ⟨m', succeeds⟩
    have swap : s.compareAndSwap m expected = (.ok m', (s.compareAndSwap m expected).2) :=
      Prod.ext succeeds rfl
    obtain ⟨r, own, fresh, _, same⟩ := compareAndSwap_eq_ok swap
    have free := commitFault_compareAndSwap s m expected
    rw [same] at free
    exact ⟨free, r, own, fresh⟩
  · rintro ⟨free, r, own, fresh⟩
    rw [compareAndSwap_of_fresh free own fresh]
    exact ⟨_, rfl⟩

/-- The version of the last of so many records. -/
def versionAfter : Nat → Option UInt64
  | 0 => none
  | n + 1 => some (.ofNat (n + 1))

theorem successor_versionAfter (n : Nat) : successor (versionAfter n) = .ofNat (n + 1) := by
  cases n with
  | zero => rfl
  | succ n => exact (UInt64.ofNat_add (n + 1) 1).symm

/-- As long as versions do not wrap around, no two records of a history have the same. -/
theorem versionAfter_inj {n k : Nat} (hn : n < 2 ^ 64) (hk : k < 2 ^ 64)
    (same : versionAfter n = versionAfter k)
    : n = k := by
  cases n with
  | zero =>
      cases k with
      | zero => rfl
      | succ k => cases same
  | succ n =>
      cases k with
      | zero => cases same
      | succ k =>
          have numbers := congrArg UInt64.toNat (Option.some.inj same)
          rwa [UInt64.toNat_ofNat_of_lt' hn, UInt64.toNat_ofNat_of_lt' hk] at numbers

/-- A commit that fails leaves all records alone. -/
theorem commit_fails (hooks : s.hooks = []) {m : Multiple} {expected : Option UInt64}
    {e : MultipleStoreError} (fails : (s.commit m expected).1 = .error e)
    : (s.commit m expected).2.records = s.records
      ∧ (s.commit m expected).2.hooks = s.hooks := by
  rw [commit_eq_compareAndSwap hooks] at fails ⊢
  exact compareAndSwap_eq_error (Prod.ext fails rfl)

-----------------------------------------------------------------------------------------
-- The line of records of a reference
-----------------------------------------------------------------------------------------

/-- (Chronicled office past) says that the vacant store has become, by serving the past requests,
one that keeps the last record of each history and numbers each history from 1.
-/
structure Chronicled (office : Nat) (past : List Request) : Prop where
  filed : ((vacant office).after past).Filed
  hooks : ((vacant office).after past).hooks = []
  fault : ((vacant office).after past).commitFault = injected? past
  last : ∀ r : MultipleReference, ((vacant office).after past).records.get? r
    = ((vacant office).history r past).getLast?
  numbered : ∀ (r : MultipleReference) (k : Nat) (m : Multiple),
    ((vacant office).history r past)[k]? = some m → m.version = some (.ofNat (k + 1))

namespace Chronicled

variable {office : Nat}

/-- The stored version counts the records of the history. -/
theorem version? (chronicled : Chronicled office past) (r : MultipleReference)
    : ((vacant office).after past).version? r
      = versionAfter ((vacant office).history r past).length := by
  rw [MultipleStore.version?, chronicled.last, List.getLast?_eq_getElem?]
  cases length : ((vacant office).history r past).length with
  | zero => simp [List.length_eq_zero_iff.mp length, versionAfter]
  | succ n =>
      have within : n < ((vacant office).history r past).length := by omega
      rw [Nat.add_sub_cancel, List.getElem?_eq_getElem within, Option.bind_some]
      exact chronicled.numbered r n _ (List.getElem?_eq_getElem within)

/-- Nothing is stored at first. -/
theorem nil (office : Nat) : Chronicled office [] where
  filed := fun _ _ found => by cases found
  hooks := rfl
  fault := rfl
  last := fun _ => rfl
  numbered := fun _ _ _ found => by cases found

/-- A request that stores nothing leaves every history as it is. -/
theorem quiet (chronicled : Chronicled office past) (request : Request)
    (silent : ((vacant office).after past).stored? request = none)
    (records : (((vacant office).after past).serve request).records
      = ((vacant office).after past).records)
    (hooks : (((vacant office).after past).serve request).hooks = [])
    (fault : (((vacant office).after past).serve request).commitFault
      = injected? (past ++ [request]))
    : Chronicled office (past ++ [request]) := by
  have after : (vacant office).after (past ++ [request])
      = ((vacant office).after past).serve request := after_append _ _ _
  have history : ∀ r, (vacant office).history r (past ++ [request])
      = (vacant office).history r past := fun r => by
    rw [history_append, MultipleStore.history, silent]
    exact List.append_nil _
  refine ⟨?_, by rw [after, hooks], by rw [after, fault], fun r => ?_, fun r => ?_⟩
  · unfold Filed
    rw [after, records]
    exact chronicled.filed
  · rw [after, records, history, chronicled.last]
  · rw [history]
    exact chronicled.numbered r

/-- A commit that succeeds replaces the record of one reference by the next of its history. -/
theorem committed (chronicled : Chronicled office past) {m m' : Multiple}
    {expected : Option UInt64}
    (succeeds : (((vacant office).after past).commit m expected).1 = .ok m')
    : ∃ r,
        m.reference = some r
        ∧ m' = m.withVersion (.ofNat (((vacant office).history r past).length + 1))
        ∧ ((vacant office).after past).commit m expected
          = (.ok m',
            { (vacant office).after past with
              records := ((vacant office).after past).records.insert r m' }) := by
  have swap : ((vacant office).after past).compareAndSwap m expected
      = (.ok m', (((vacant office).after past).compareAndSwap m expected).2) := by
    rw [commit_eq_compareAndSwap chronicled.hooks] at succeeds
    exact Prod.ext succeeds rfl
  obtain ⟨r, own, fresh, record, stored⟩ := compareAndSwap_eq_ok swap
  refine ⟨r, own, ?_, ?_⟩
  · rw [record, ← fresh, chronicled.version?, successor_versionAfter]
  · rw [commit_eq_compareAndSwap chronicled.hooks, swap, ← stored]

/-- The history of the committed reference grows by the record, the others stay as they are. -/
theorem stores (chronicled : Chronicled office past) {m m' : Multiple} {expected : Option UInt64}
    (succeeds : (((vacant office).after past).commit m expected).1 = .ok m')
    : Chronicled office (past ++ [.commit m expected]) := by
  obtain ⟨r, own, rfl, commits⟩ := chronicled.committed succeeds
  have free : ((vacant office).after past).commitFault = none :=
    ((commit_succeeds_iff chronicled.hooks m expected).mp ⟨_, succeeds⟩).1
  have after : (vacant office).after (past ++ [.commit m expected])
      = (((vacant office).after past).commit m expected).2 := after_append _ _ _
  rw [commits] at after
  have history := fun q => history_commit (q := q) succeeds own
  refine ⟨?_, by rw [after]; exact chronicled.hooks, ?_, fun q => ?_, fun q k n found => ?_⟩
  · rw [after]
    exact chronicled.filed.insert own _
  · rw [after]
    simpa [injected?] using free
  · rw [after, history]
    by_cases here : q = r
    · simp [here, Register.get?_insert_self]
    · simpa [here, Register.get?_insert_of_ne] using chronicled.last q
  · rw [history] at found
    by_cases here : q = r
    · subst here
      rw [if_pos rfl] at found
      rcases Nat.lt_or_ge k ((vacant office).history q past).length with earlier | last
      · rw [List.getElem?_append_left earlier] at found
        exact chronicled.numbered q k n found
      · rw [List.getElem?_append_right last, List.getElem?_singleton] at found
        split at found
        next first =>
          cases found
          rw [show k = ((vacant office).history q past).length by omega]
          rfl
        next => cases found
    · rw [if_neg here, List.append_nil] at found
      exact chronicled.numbered q k n found

/-- Every request keeps the histories. -/
theorem serve (chronicled : Chronicled office past) (request : Request)
    : Chronicled office (past ++ [request]) := by
  have fault := chronicled.fault
  have hooks := chronicled.hooks
  cases request with
  | load r =>
      obtain ⟨_, loads⟩ := ((vacant office).after past).load_leaves r
      refine chronicled.quiet _ rfl ?_ ?_ ?_ <;> rw [MultipleStore.serve, loads]
      · exact hooks
      · simpa [injected?] using fault
  | allocate =>
      obtain ⟨_, _, allocates⟩ := ((vacant office).after past).allocate_leaves
      refine chronicled.quiet _ rfl ?_ ?_ ?_ <;> rw [MultipleStore.serve, allocates]
      · exact hooks
      · simpa [injected?] using fault
  | failCommit e =>
      refine chronicled.quiet _ rfl rfl hooks ?_
      simp [MultipleStore.serve, injected?]
  | commit m expected =>
      cases answer : (((vacant office).after past).commit m expected).1 with
      | ok m' => exact chronicled.stores answer
      | error e =>
          have free := commitFault_compareAndSwap ((vacant office).after past) m expected
          obtain ⟨records, same⟩ := commit_fails hooks answer
          rw [← commit_eq_compareAndSwap hooks] at free
          refine chronicled.quiet _ ?_ records (same.trans hooks) ?_
          · rw [stored?, answer]
            rfl
          · simpa [injected?, MultipleStore.serve] using free

/-- The histories after any requests, by induction on them from the last one. -/
theorem of_requests (office : Nat) (requests : List Request) : Chronicled office requests := by
  induction requests using List.reverseRecOn with
  | nil => exact nil office
  | append_singleton past request ih => exact ih.serve request

end Chronicled

/-- Of two commits of a reference that expect the same version, the later one fails: the first one
has made the history longer.
-/
theorem expected_once {office : Nat} {requests : List Request} {m n : Multiple}
    {expected : Option UInt64} (few : requests.countP Request.isCommit < 2 ^ 64)
    (start : past ++ [.commit m expected] <+: requests)
    (start' : later ++ [.commit n expected] <+: requests)
    (own : m.reference = some r) (same : n.reference = some r)
    (first : ∃ m', (((vacant office).after past).commit m expected).1 = .ok m')
    (second : ∃ n', (((vacant office).after later).commit n expected).1 = .ok n')
    : later.length ≤ past.length := by
  by_contra earlier
  have chronicled := Chronicled.of_requests office past
  have chronicled' := Chronicled.of_requests office later
  have within : later <+: requests := (List.prefix_append later _).trans start'
  have next : past ++ [.commit m expected] <+: later := by
    refine List.prefix_of_prefix_length_le start within ?_
    rw [List.length_append, List.length_singleton]
    omega
  have fresh : ((vacant office).after past).version? r = expected := by
    obtain ⟨q, named, fresh⟩ := ((commit_succeeds_iff chronicled.hooks m expected).mp first).2
    rwa [Option.some.inj (own.symm.trans named)]
  have fresh' : ((vacant office).after later).version? r = expected := by
    obtain ⟨q, named, fresh⟩ := ((commit_succeeds_iff chronicled'.hooks n expected).mp second).2
    rwa [Option.some.inj (same.symm.trans named)]
  have longer : ((vacant office).history r past).length
      < ((vacant office).history r later).length := by
    obtain ⟨m', succeeds⟩ := first
    obtain ⟨q, named, rfl, _⟩ := chronicled.committed succeeds
    cases Option.some.inj (own.symm.trans named)
    obtain ⟨between, rfl⟩ := next
    rw [history_append, history_commit succeeds own]
    simp
  have bound : ∀ served, served <+: requests →
      ((vacant office).history r served).length < 2 ^ 64 := fun served start =>
    Nat.lt_of_le_of_lt
      (Nat.le_trans (length_history_le _ r served) start.sublist.countP_le) few
  have equal := versionAfter_inj
    (bound past (((List.prefix_append past _).trans next).trans within)) (bound later within)
    (by rw [← chronicled.version?, ← chronicled'.version?, fresh, fresh'])
  omega

/-- Whatever requests a vacant store serves, with fewer commits than there are versions: a commit
succeeds if and only if no error has been set up for it and the stored version of its reference is
the expected one; the k-th commit of a reference that succeeds stores version k, and nothing else;
a commit that fails leaves all records alone. At all times each reference has the last record of
its history, under itself and with a version. No two commits of a reference that expect the same
version both succeed.
-/
theorem commits_linear (office : Nat) (requests : List Request)
    (few : requests.countP Request.isCommit < 2 ^ 64)
    : (∀ past m expected, past ++ [.commit m expected] <+: requests →
        let s := (vacant office).after past
        ((∃ m', (s.commit m expected).1 = .ok m')
          ↔ injected? past = none ∧ ∃ r, m.reference = some r ∧ s.version? r = expected)
        ∧ (∀ m', (s.commit m expected).1 = .ok m' →
            ∃ r v,
              m.reference = some r
              ∧ m' = m.withVersion v
              ∧ v.toNat = ((vacant office).history r past).length + 1
              ∧ (s.commit m expected).2.records = s.records.insert r m')
        ∧ ∀ e, (s.commit m expected).1 = .error e → (s.commit m expected).2.records = s.records)
      ∧ (∀ past, past <+: requests →
          ((vacant office).after past).Filed
          ∧ ∀ r, ((vacant office).after past).records.get? r
            = ((vacant office).history r past).getLast?)
      ∧ ∀ past later m n expected r,
          past ++ [.commit m expected] <+: requests →
          later ++ [.commit n expected] <+: requests →
          m.reference = some r → n.reference = some r →
          (∃ m', (((vacant office).after past).commit m expected).1 = .ok m') →
          (∃ n', (((vacant office).after later).commit n expected).1 = .ok n') →
          past = later := by
  refine ⟨fun past m expected start => ⟨?_, fun m' succeeds => ?_, fun e fails => ?_⟩,
    fun past _ => ?_, fun past later m n expected r start start' own same first second => ?_⟩
  · have chronicled := Chronicled.of_requests office past
    rw [commit_succeeds_iff chronicled.hooks, chronicled.fault]
  · obtain ⟨r, own, record, commits⟩ := (Chronicled.of_requests office past).committed succeeds
    refine ⟨r, _, own, record, UInt64.toNat_ofNat_of_lt' ?_, by rw [commits]⟩
    have count : (past ++ [Request.commit m expected]).countP Request.isCommit < 2 ^ 64 :=
      Nat.lt_of_le_of_lt start.sublist.countP_le few
    rw [List.countP_append] at count
    exact Nat.lt_of_le_of_lt (Nat.succ_le_succ (length_history_le _ r past)) count
  · exact (commit_fails (Chronicled.of_requests office past).hooks fails).1
  · have chronicled := Chronicled.of_requests office past
    exact ⟨chronicled.filed, chronicled.last⟩
  · have equal : past.length = later.length :=
      Nat.le_antisymm (expected_once few start' start same own second first)
        (expected_once few start start' own same first second)
    have within : past <+: requests := (List.prefix_append past _).trans start
    exact (List.prefix_of_prefix_length_le within ((List.prefix_append later _).trans start')
      (Nat.le_of_eq equal)).eq_of_length equal

end MultipleStore

-----------------------------------------------------------------------------------------
-- A race for the first version
-----------------------------------------------------------------------------------------

namespace Sample

def draft : Multiple :=
  { reference := some (.ofSequence 60 1), name := "Group" }

/-- Two clients commit a record that neither has found; a third one commits over the first version,
at first in vain.
-/
def race : List MultipleStore.Request :=
  [ .load (.ofSequence 60 1), .load (.ofSequence 60 1), .commit draft none, .commit draft none,
    .failCommit (.transport "down"), .commit draft (some 1), .commit draft (some 1) ]

open MultipleStore in
/-- The first client creates the record and the second one is turned away. -/
theorem second_turned_away
    : race.countP Request.isCommit < 2 ^ 64
      ∧ (∃ m', (((vacant 60).after (race.take 2)).commit draft none).1 = .ok m')
      ∧ ¬ ∃ m', (((vacant 60).after (race.take 3)).commit draft none).1 = .ok m' := by
  have few : race.countP Request.isCommit < 2 ^ 64 := by decide
  have commits := (commits_linear 60 race few).1
  have first := (commits (race.take 2) draft none ⟨race.drop 3, rfl⟩).1
  have second := (commits (race.take 3) draft none ⟨race.drop 4, rfl⟩).1
  refine ⟨few, first.mpr ⟨rfl, _, rfl, rfl⟩, fun succeeds => ?_⟩
  obtain ⟨_, r, own, fresh⟩ := second.mp succeeds
  cases own
  revert fresh
  decide

end Sample

end CaseGrouping
