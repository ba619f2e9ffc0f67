import CaseGrouping.Proofs.Retry.Unhindered
import CaseGrouping.Proofs.Retry.Verdicts

/-! Rounds through the pool that are retried after a commit that failed. By then all cases have been
written, so the retry finds the same joiners, does the same writes again, and commits what one run
would have committed.
-/

namespace CaseGrouping

/-- The stores in which the next commit fails with an error. -/
def Stores.failCommit (s : Stores) (e : MultipleStoreError) : Stores :=
  { s with multiples := { s.multiples with commitFault := some e } }

/-- Stores in memory tell the truth about their cases, unless a search fails. -/
theorem Stores.InMemory.truthful {s : Stores} (inMemory : s.InMemory)
    (searching : s.cases.searchFault = none)
    : s.cases.Truthful :=
  ⟨inMemory.keyed, inMemory.unset, .inl searching⟩

namespace Coordinator

variable {k : Coordinator} {s t u : Stores} {r : Reconciliation} {request : RoundRequest}
  {outcome : RoundOutcome} {reference : MultipleReference}

-----------------------------------------------------------------------------------------
-- Commits that are made again
-----------------------------------------------------------------------------------------

/-- A commit that fails uses up the fault that it meets and does nothing else. -/
theorem commit_of_fault {e : MultipleStoreError} (members : List Member)
    (fault : s.multiples.commitFault = some e) (hooks : s.multiples.hooks = [])
    : ∃ t,
        (k.commit r members).Fails s (.ofMultipleStore e) t
        ∧ t.cases = s.cases
        ∧ t.multiples = { s.multiples with commitFault := none } := by
  have answer : s.multiples.commit (r.record members) r.expected
      = (.error e, { s.multiples with commitFault := none }) := by
    rw [MultipleStore.commit_eq_compareAndSwap hooks, MultipleStore.compareAndSwap, fault]
  let t := (Stores.commit k.scope (r.record members) r.expected s).2
  have refused : (Stores.commit k.scope (r.record members) r.expected s).1 = .error e :=
    congrArg Prod.fst answer
  refine ⟨t, Round.fails_multiples.mpr ⟨e, Prod.ext refused rfl, rfl⟩, rfl, ?_⟩
  exact congrArg Prod.snd answer

/-- What was committed once is committed again on stores with the same records. -/
theorem commit_again {members : List Member} {record : Multiple}
    (own : r.multiple.reference = some r.reference) (hooks : s.multiples.hooks = [])
    (commits : (k.commit r members).Returns s record t)
    (records : u.multiples.records = s.multiples.records)
    (free : u.multiples.commitFault = none) (hooks' : u.multiples.hooks = [])
    : ∃ v,
        (k.commit r members).Returns u record v
        ∧ v.cases = u.cases
        ∧ v.multiples.records = t.multiples.records := by
  obtain ⟨committed, _, _⟩ := commit_returns own hooks commits
  have fresh : u.multiples.version? r.reference = r.expected := by
    rw [MultipleStore.version?, records]
    exact committed.fresh
  obtain ⟨record', v, commits', committed', cases⟩ :=
    commit_of_fresh (k := k) members own free hooks' fresh
  have same : record' = record := committed'.record.trans committed.record.symm
  rw [same] at commits' committed'
  refine ⟨v, commits', cases, ?_⟩
  rw [committed'.stored, committed.stored, records]

/-- A reconciliation that is not hindered fails with its commit, once its writes are done. -/
theorem reconcile_of_fault {e : MultipleStoreError} (posed : r.WellPosed)
    (own : r.multiple.reference = some r.reference) (mode : r.mode = .synchronousFanOut)
    (inMemory : s.InMemory) (unhindered : ∀ case, s.cases.Unhindered case)
    (fault : s.multiples.commitFault = some e)
    : ∃ u t,
        (k.reconcile r).Fails s (.ofMultipleStore e) t
        ∧ s.Wrote u
        ∧ u.cases.records = afterWrites s.cases.records (r.writes s.cases.records)
        ∧ t.cases = u.cases
        ∧ t.multiples = { s.multiples with commitFault := none } := by
  obtain ⟨u, wrote, records, ends⟩ :=
    reconcile_unhindered (k := k) posed own mode inMemory.keyed unhindered
  have fault' : u.multiples.commitFault = some e := by
    rw [wrote.multiples]
    exact fault
  obtain ⟨t, fails, cases, multiples⟩ := commit_of_fault (k := k) (r := r)
    (r.settlement s.cases.records).members fault' (inMemory.wrote wrote).hooks
  rw [wrote.multiples] at multiples
  exact ⟨u, t, ends.trans (Round.fails_bind.mpr (.inl fails)), wrote, records, cases, multiples⟩

/-- A reconciliation that is not hindered returns, if its multiple is at the expected version. -/
theorem reconcile_of_fresh (posed : r.WellPosed) (own : r.multiple.reference = some r.reference)
    (mode : r.mode = .synchronousFanOut) (inMemory : s.InMemory)
    (unhindered : ∀ case, s.cases.Unhindered case) (free : s.multiples.commitFault = none)
    (fresh : s.multiples.version? r.reference = r.expected)
    : ∃ outcome t, (k.reconcile r).Returns s outcome t := by
  obtain ⟨u, wrote, _, ends⟩ :=
    reconcile_unhindered (k := k) posed own mode inMemory.keyed unhindered
  have hooks := (inMemory.wrote wrote).hooks
  rw [← wrote.multiples] at free fresh
  obtain ⟨record, t, commits, _⟩ := commit_of_fresh (k := k)
    (r.settlement s.cases.records).members own free hooks fresh
  exact ⟨_, t, ends.trans (Round.returns_bind.mpr ⟨record, t, commits, rfl⟩)⟩

/-- A reconciliation that has returned returns the same on stores that hold the same records, and
whose cases have been through its writes already.
-/
theorem reconcile_again (posed : r.WellPosed) (own : r.multiple.reference = some r.reference)
    (mode : r.mode = .synchronousFanOut) (inMemory : s.InMemory)
    (unhindered : ∀ case, s.cases.Unhindered case)
    (returns : (k.reconcile r).Returns s outcome t) (inMemory' : u.InMemory)
    (unhindered' : ∀ case, u.cases.Unhindered case)
    (cases : u.cases.records = afterWrites s.cases.records (r.writes s.cases.records))
    (records : u.multiples.records = s.multiples.records)
    (free : u.multiples.commitFault = none)
    : ∃ v,
        (k.reconcile r).Returns u outcome v
        ∧ v.cases.records = t.cases.records
        ∧ v.multiples.records = t.multiples.records := by
  obtain ⟨p, wrote, written, ends⟩ :=
    reconcile_unhindered (k := k) posed own mode inMemory.keyed unhindered
  obtain ⟨q, wrote', written', ends'⟩ :=
    reconcile_unhindered (k := k) posed own mode inMemory'.keyed unhindered'
  have settlement : r.settlement u.cases.records = r.settlement s.cases.records := by
    rw [cases]
    exact Reconciliation.settlement_congr (stored_afterWrites _ _)
  rw [Reconciliation.writes, settlement, cases] at written'
  rw [settlement] at ends'
  rw [Reconciliation.writes, afterWrites_again posed.nodup_writes (r.writes_settlement _)]
    at written'
  obtain ⟨committed, x, commits, concludes⟩ := Round.returns_bind.mp (ends.symm.trans returns)
  obtain ⟨rfl, rfl⟩ := Round.returns_pure.mp concludes
  obtain ⟨_, _, sameCases⟩ := commit_returns own (inMemory.wrote wrote).hooks commits
  obtain ⟨v, commits', cases', records'⟩ := commit_again own (inMemory.wrote wrote).hooks commits
    (u := q) (by rw [wrote'.multiples, wrote.multiples, records])
    (by rw [wrote'.multiples, free]) (inMemory'.wrote wrote').hooks
  refine ⟨v, ends'.trans (Round.returns_bind.mpr ⟨_, v, commits', rfl⟩), ?_, records'⟩
  rw [cases', written', sameCases, written]
  rfl

/-- The writes of a reconciliation spare the verdicts of its multiple, those of its election
included.
-/
theorem spares_writes (prepared : r.Prepared request s)
    {cases : Register CaseReference SingleCase} {w : CaseWrite} (member : w ∈ r.writes cases)
    : w.Spares r.reference s.cases.records := by
  rcases List.mem_append.mp member with planned | flag
  · exact prepared.spares planned
  · exact .keep (r.keep_of_settlement cases w flag)

-----------------------------------------------------------------------------------------
-- Rounds
-----------------------------------------------------------------------------------------

/-- (Interrupted r s t) says that between the stores s and t a reconciliation has done its writes,
but no commit. A retry finds the same joiners.
-/
structure Interrupted (r : Reconciliation) (s t : Stores) : Prop where
  inMemory : t.InMemory
  unhindered : ∀ case, t.cases.Unhindered case
  cases : t.cases.records = afterWrites s.cases.records (r.writes s.cases.records)
  records : t.multiples.records = s.multiples.records
  free : t.multiples.commitFault = none
  alike : s.Alike (some r.reference) t

variable (inMemory : s.InMemory) (unhindered : ∀ case, s.cases.Unhindered case)
  (searching : s.cases.searchFault = none)

include inMemory unhindered searching

/-- A run that has prepared its work in spite of the fault does its writes, and fails when it
commits.
-/
theorem interrupted_of_prepare {p : Stores} (e : MultipleStoreError)
    (mode : request.mode = .synchronousFanOut) (prepared : r.Prepared request s)
    (prepares : (k.prepare request).Returns (s.failCommit e) (.reconcile r) p)
    (loadFault : p.multiples.loadFault = s.multiples.loadFault)
    : ∃ t,
        (k.carryOut request).Fails (s.failCommit e) (.ofMultipleStore e) t
        ∧ Interrupted r s t
        ∧ t.multiples = { p.multiples with commitFault := none } := by
  have truthful := inMemory.truthful searching
  have inMemory₀ : (s.failCommit e).InMemory :=
    ⟨inMemory.keyed, inMemory.filed, inMemory.unset, inMemory.hooks⟩
  obtain ⟨asked, _⟩ := prepare_returns inMemory₀ prepares
  have unhindered' := fun case => asked.unhindered (unhindered case)
  obtain ⟨u, t, fails, wrote, written, cases, multiples⟩ :=
    reconcile_of_fault (k := k) prepared.posed prepared.reference (prepared.mode.trans mode)
      (inMemory₀.asked asked) unhindered' asked.commitFault
  rw [asked.cases] at written
  have failed : (k.carryOut request).Fails (s.failCommit e) (.ofMultipleStore e) t := by
    rw [carryOut_eq]
    exact Round.fails_bind.mpr (.inr ⟨_, p, prepares, fails⟩)
  have kept : t.InMemory := (Stores.InMemory.kept.carryOut request).of_fails inMemory₀ failed
  refine ⟨t, failed, ⟨kept, fun case => ?_, ?_, ?_, ?_, truthful,
    ⟨kept.keyed, kept.unset, .inl ?_⟩, ?_, ?_, fun m joined case => ?_⟩, multiples⟩
  · rw [cases]
    exact wrote.unhindered case (unhindered' case)
  · rw [cases]
    exact written
  · rw [multiples]
    exact asked.multiples
  · rw [multiples]
  · rw [cases, wrote.searchFault]
    exact asked.searchFault searching
  · rw [multiples]
    exact asked.multiples
  · rw [multiples]
    exact loadFault
  · cases joined
    rw [cases, written]
    exact verdict?_afterWrites (fun w member => spares_writes prepared member) case

/-- The first run is prepared as one without the fault, does its writes, and fails when it commits.
-/
theorem carryOut_interrupted {p : Stores} (e : MultipleStoreError)
    (mode : request.mode = .synchronousFanOut)
    (own : request.multiple.reference = some reference)
    (prepares : (k.prepare request).Returns s (.reconcile r) p)
    : ∃ t,
        (k.carryOut request).Fails (s.failCommit e) (.ofMultipleStore e) t
        ∧ Interrupted r s t := by
  obtain ⟨_, prepared⟩ := prepare_returns inMemory prepares
  have prepared : r.Prepared request s := prepared
  have truthful := inMemory.truthful searching
  have repeats : (k.prepare request).Repeats (some r.reference) :=
    prepare_repeats (prepared.named own) fun _ => rfl
  have alike : s.Alike (some r.reference) (s.failCommit e) :=
    ⟨truthful, truthful, rfl, rfl, fun _ _ _ => rfl⟩
  obtain ⟨p', prepares'⟩ := (repeats truthful prepares).2 alike
  have loadFault := (repeats (s := s.failCommit e) truthful prepares').1.loadFault
  obtain ⟨t, fails, interrupted, _⟩ :=
    interrupted_of_prepare inMemory unhindered searching e mode prepared prepares' loadFault
  exact ⟨t, fails, interrupted⟩

/-- A round without a target whose commit fails is healed by retrying it: the retry gives what one
run would have given, and leaves the same cases and records.
-/
theorem carryOut_retried (k : Coordinator) (e : MultipleStoreError)
    (mode : request.mode = .synchronousFanOut) (stays : request.target? = none)
    (own : request.multiple.reference = some reference)
    (succeeds : (k.carryOut request).Returns s outcome u)
    : ∃ t v,
        (k.carryOut request).Fails (s.failCommit e) (.ofMultipleStore e) t
        ∧ (k.carryOut request).Returns t outcome v
        ∧ v.cases.records = u.cases.records
        ∧ v.multiples.records = u.multiples.records := by
  obtain ⟨work, p, prepares, performs⟩ := carryOut_returns succeeds
  obtain ⟨r, rfl⟩ := (prepares_of_returns prepares).reconciles stays
  obtain ⟨asked, prepared⟩ := prepare_returns inMemory prepares
  have prepared : r.Prepared request s := prepared
  obtain ⟨t, fails, interrupted⟩ :=
    carryOut_interrupted inMemory unhindered searching e mode own prepares
  have repeats : (k.prepare request).Repeats (some r.reference) :=
    prepare_repeats (prepared.named own) fun _ => rfl
  obtain ⟨p', prepares'⟩ := (repeats interrupted.alike.truthful prepares).2 interrupted.alike
  obtain ⟨asked', _⟩ := prepare_returns interrupted.inMemory prepares'
  obtain ⟨v, returns, cases, records⟩ := reconcile_again prepared.posed prepared.reference
    (prepared.mode.trans mode) (inMemory.asked asked)
    (fun case => asked.unhindered (unhindered case)) performs
    (interrupted.inMemory.asked asked')
    (fun case => asked'.unhindered (interrupted.unhindered case))
    (by rw [asked'.cases, interrupted.cases, asked.cases])
    (by rw [asked'.multiples, interrupted.records, asked.multiples])
    (by rw [asked'.commitFault, interrupted.free])
  refine ⟨t, v, fails, ?_, cases, records⟩
  rw [carryOut_eq]
  exact Round.returns_bind.mpr ⟨_, p', prepares', returns⟩

end Coordinator

/-- Two cases join and one gets a value, but the first commit meets a transport error. The retry
gives the outcome at version 2.
-/
theorem Sample.retried_of_transport
    : ∃ outcome u t v,
        (coordinator.carryOut (joining .synchronousFanOut)).Returns (stores []) outcome u
        ∧ outcome.multiple.version = some 2
        ∧ (coordinator.carryOut (joining .synchronousFanOut)).Fails
            ((stores []).failCommit (.transport "down")) (.multipleStore (.transport "down")) t
        ∧ (coordinator.carryOut (joining .synchronousFanOut)).Returns t outcome v
        ∧ v.cases.records = u.cases.records
        ∧ v.multiples.records = u.multiples.records := by
  have unhindered : ∀ case, (stores []).cases.Unhindered case := fun case =>
    ⟨rfl, List.not_mem_nil⟩
  have mode : (joining .synchronousFanOut).mode = .synchronousFanOut := rfl
  have own : (joining .synchronousFanOut).multiple.reference = some group := rfl
  obtain ⟨t, v, retried⟩ := coordinator.carryOut_retried (reachable_stores []).inMemory unhindered
    rfl (.transport "down") mode rfl own rfl
  exact ⟨_, _, t, v, rfl, by decide +kernel, retried⟩

end CaseGrouping
