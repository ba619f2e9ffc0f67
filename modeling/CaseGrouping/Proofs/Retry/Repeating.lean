import CaseGrouping.Proofs.Agreement.Tags
import CaseGrouping.Proofs.Durable.Convergence
import CaseGrouping.Proofs.Membership.Accounting
import CaseGrouping.Proofs.Retry.Leads
import CaseGrouping.Proofs.Round.Writing

/-! Updates in place that are repeated with the record which they have returned. The first run has
put everybody in place, so the second one has the same values to write at most.
-/

namespace CaseGrouping

/-- A change that only brings the values and the tag of an earlier one changes nothing after it. -/
theorem ChangeSet.apply_after {first again : ChangeSet}
    (stays : ∀ m, first.membership ≠ .detach m) (kept : again.membership = .keep)
    (unflagged : again.lead = none) (tag : again.subGroup = first.subGroup)
    (fields : again.fields = first.fields) (case : SingleCase)
    : again.apply (first.apply case) = first.apply case := by
  have rewritten : ∀ c : SingleCase, again.writeTo (first.writeTo c) = first.writeTo c := by
    intro c
    unfold writeTo
    rw [unflagged, tag, fields]
    cases first.subGroup <;> simp [Register.insertAll_insertAll]
  cases membership : first.membership with
  | keep =>
      simp only [apply, membership, kept]
      exact rewritten case
  | attach multiple =>
      simp only [apply, membership, kept]
      exact rewritten { case with multiple := some multiple }
  | detach multiple => exact absurd membership (stays multiple)

-----------------------------------------------------------------------------------------
-- Reconciliations that are done again
-----------------------------------------------------------------------------------------

namespace Reconciliation

/-- (again.Redoes r) says that a reconciliation proposes the cases of r with the same lead, values
and tag, on a record whose members are those that the writes of r lead to.
-/
structure Redoes (r again : Reconciliation) : Prop where
  first : r.WellPosed
  posed : again.WellPosed
  valid : again.multiple.validateIncoming = .ok ()
  members : again.multiple.members = r.members (r.plan.writes.map CaseWrite.case)
  proposed : again.delta.proposed = r.delta.proposed
  lead : again.lead = r.lead
  targeting : again.targeting = r.targeting

namespace Redoes

variable {r again : Reconciliation} {w : CaseWrite} (redoes : r.Redoes again)

include redoes

/-- The record lists what is proposed, and has the chosen lead. -/
theorem listed
    : again.multiple.memberReferences = again.delta.proposed
      ∧ again.multiple.leadCase? = again.lead := by
  rw [redoes.proposed, redoes.lead]
  exact redoes.first.listed_of_plan redoes.members

/-- So nobody joins or leaves. -/
theorem nobody : again.delta.toAttach = [] ∧ again.delta.toDetach = [] := by
  have splits := redoes.posed.splits
  have listed := redoes.listed.1
  refine ⟨splits.toAttach_eq_nil fun case proposed => ?_,
    splits.toDetach_eq_nil fun case member => ?_⟩
  · rw [listed]
    exact proposed
  · rw [← listed]
    exact member

/-- A write keeps its case where it is and does not touch the lead flag. It brings the values and
the tag that a write of the first run has brought.
-/
theorem repeated (member : w ∈ again.plan.writes)
    : w.change.membership = .keep
      ∧ w.change.lead = none
      ∧ ∃ v ∈ r.plan.write,
          v.case = w.case ∧ w.change.subGroup = v.change.subGroup
          ∧ w.change.fields = v.change.fields := by
  obtain ⟨noJoins, noLeaves⟩ := redoes.nobody
  obtain ⟨written, kept, unflagged⟩ := redoes.posed.keeps_of_nobody redoes.valid noJoins noLeaves
    redoes.listed.2 member
  refine ⟨kept, unflagged, ?_⟩
  have proposed := redoes.posed.proposed written
  obtain ⟨fields, tag⟩ := values_of_write written
  rw [redoes.targeting] at fields tag
  rw [redoes.proposed] at proposed
  by_cases given : w.case ∈ r.targeting.cases
      ∧ ¬ (r.targeting.edits = ∅ ∧ r.targeting.subGroup = none)
  · obtain ⟨v, planned, same⟩ := redoes.first.exists_write proposed given.1 given.2
    obtain ⟨fields', tag'⟩ := values_of_write planned
    rw [same] at fields' tag'
    exact ⟨v, planned, same, tag.trans tag'.symm, fields.trans fields'.symm⟩
  · -- Without a value or a tag to bring, the change would be empty.
    have plain : w.change.fields = ∅ ∧ w.change.subGroup = none := by
      rw [fields, tag]
      split
      next targeted => exact Decidable.not_not.mp fun some => given ⟨targeted, some⟩
      next => exact ⟨rfl, rfl⟩
    rcases mem_write_plan.mp written with ⟨joins, _⟩ | ⟨_, _, changes⟩
    · rw [noJoins] at joins
      cases joins
    · rw [ChangeSet.isEmpty, kept, unflagged, plain.1, plain.2] at changes
      cases changes

/-- Once the writes of the first run were done, those of the second one change nothing. -/
theorem afterWrites (cases : Register CaseReference SingleCase)
    : CaseGrouping.afterWrites (CaseGrouping.afterWrites cases r.plan.writes) again.plan.writes
      = CaseGrouping.afterWrites cases r.plan.writes := by
  refine Register.ext_get? fun case => ?_
  by_cases written : case ∈ again.plan.writes.map CaseWrite.case
  · obtain ⟨w, member, rfl⟩ := List.mem_map.mp written
    obtain ⟨kept, unflagged, v, planned, same, tag, fields⟩ := redoes.repeated member
    have before : (CaseGrouping.afterWrites cases r.plan.writes).get? v.case = _ :=
      get?_afterWrites redoes.first.nodup_writes (List.mem_append_right _ planned)
    rw [get?_afterWrites redoes.posed.nodup_writes member, ← same, before, Option.map_map]
    congr 1
    exact funext (ChangeSet.apply_after (stays_of_write planned) kept unflagged tag fields)
  · exact get?_afterWrites_of_absent written

/-- An entry that is given its tag again, or none, keeps the tag that it has. -/
theorem tagFor_again {case : CaseReference} (proposed : case ∈ again.delta.proposed)
    (previous : Option String)
    : again.targeting.tagFor case
        (r.targeting.tagFor case previous (case ∈ r.plan.writes.map CaseWrite.case))
        (case ∈ again.plan.writes.map CaseWrite.case)
      = r.targeting.tagFor case previous (case ∈ r.plan.writes.map CaseWrite.case) := by
  rw [Targeting.tagFor_eq, Targeting.tagFor_eq]
  cases given : r.targeting.tagOf? case with
  | none =>
      rw [redoes.targeting, given]
      have keeps : ∀ old : Option String, (none <|> old) = old := fun _ => rfl
      simp only [keeps, ite_self]
  | some tag =>
      have given' : again.targeting.tagOf? case = some tag := redoes.targeting ▸ given
      have sent := redoes.first.sent_of_tagOf? redoes.first.carried_writes
        (redoes.proposed ▸ proposed) given
      have sent' := redoes.posed.sent_of_tagOf? redoes.posed.carried_writes proposed given'
      rw [given', if_pos (decide_eq_true sent'), if_pos (decide_eq_true sent)]
      rfl

/-- The members are those of the record. -/
theorem members_again
    : again.members (again.plan.writes.map CaseWrite.case) = again.multiple.members := by
  obtain ⟨noJoins, noLeaves⟩ := redoes.nobody
  have entries := redoes.members
  rw [members_of_done (fun case joins => mem_writes_plan (.inl joins))
    fun case leaves => mem_writes_plan (.inr leaves)] at entries
  rw [members_of_done (by simp [noJoins]) (by simp [noLeaves])]
  refine Eq.trans ?_ entries.symm
  rw [redoes.proposed, redoes.lead]
  refine List.map_congr_left fun case proposed => ?_
  rw [← redoes.proposed] at proposed
  -- The record has the entry of the case that the first run has made.
  obtain ⟨x, found⟩ := Multiple.exists_member? (redoes.listed.1 ▸ proposed)
  obtain ⟨member, same⟩ := Multiple.member?_eq_some found
  rw [entries] at member
  obtain ⟨other, _, rfl⟩ := List.mem_map.mp member
  obtain rfl : other = case := same
  rw [found, Option.bind_some, redoes.tagFor_again proposed]

end Redoes

end Reconciliation

-----------------------------------------------------------------------------------------
-- The second run
-----------------------------------------------------------------------------------------

namespace Coordinator

variable {k : Coordinator} {s t : Stores} {request : BulkUpdate} {r again : Reconciliation}
  {outcome : RoundOutcome} {record : Multiple}

/-- What an update in place comes to when nobody is refused. -/
theorem Prepares.inPlace_of_free (prepares : k.Prepares s (.update request) (.reconcile r))
    (free : r.failures = [])
    : r.multiple = request.multiple
      ∧ r.targeting = ⟨request.matched, request.edits, request.subGroup⟩
      ∧ r.delta
        = .resolve request.multiple.memberReferences request.requested request.matched
      ∧ r.lead = electLead r.delta.proposed request.multiple.leadCase? r.delta.roundKind := by
  cases prepares with
  | inPlace _ _ _ _ => exact ⟨rfl, rfl, Reconciliation.delta_ofUpdate_of_free free, rfl⟩

/-- Members are not checked again, so nobody is refused when only members are asked for. -/
theorem Prepares.free_of_members (prepares : k.Prepares s (.update request) (.reconcile r))
    (known
      : ∀ case ∈ orderedUnion request.requested request.matched,
          case ∈ request.multiple.memberReferences)
    : r.failures = [] := by
  cases prepares with
  | @inPlace _ reference u _ _ _ _ =>
      have nobody := (MembershipDelta.splits_resolve request.multiple.memberReferences
        request.requested request.matched).toAttach_eq_nil known
      change (Joiners.check k.scope reference _ u).1.failures = []
      rw [nobody]
      rfl

/-- An update that is repeated with a record of its first run comes to a reconciliation that does
the first one again.
-/
theorem Prepares.redoes (prepares : k.Prepares s (.update request) (.reconcile r))
    (free : r.failures = []) (valid : record.validateIncoming = .ok ())
    (members : record.members = r.members (r.plan.writes.map CaseWrite.case))
    (repeats
      : k.Prepares t (.update { request with multiple := record }) (.reconcile again))
    : again.failures = [] ∧ r.Redoes again := by
  obtain ⟨_, targeting, delta, _⟩ := prepares.inPlace_of_free free
  have posed := prepares.posed
  obtain ⟨listed, led⟩ := posed.listed_of_plan members
  have proposed : r.delta.proposed = orderedUnion request.requested request.matched := by
    rw [delta]
    rfl
  have free' : again.failures = [] := by
    refine repeats.free_of_members fun case wanted => ?_
    change case ∈ record.memberReferences
    rw [listed, proposed]
    exact wanted
  obtain ⟨multiple, targeting', delta', lead⟩ := repeats.inPlace_of_free free'
  have proposed' : again.delta.proposed = r.delta.proposed := by
    rw [delta', proposed]
    rfl
  have posed' := repeats.posed
  have kind : again.delta.roundKind = .fieldUpdate := by
    refine posed'.splits.roundKind_eq.mpr fun case => ?_
    rw [multiple, proposed', ← listed]
  refine ⟨free',
    { first := posed
      posed := posed'
      valid := multiple ▸ valid
      members := multiple ▸ members
      proposed := proposed'
      lead := ?_
      targeting := targeting'.trans targeting.symm }⟩
  rw [lead, kind, proposed', show record.leadCase? = r.lead from led]
  exact electLead_fieldUpdate posed.leads

/-- When a reconciliation is done again on the cases that it has left, it leaves them so. It sends
values and tags at most, and commits the members of its record.
-/
theorem reconcile_redone {q : RoundRequest} {u : Stores} {cases : Register CaseReference SingleCase}
    (redoes : r.Redoes again) (prepared : again.Prepared q s)
    (mode : q.mode = .synchronousFanOut) (inMemory : s.InMemory) (asked : s.Asked u)
    (applied : s.cases.records = afterWrites cases r.plan.writes)
    (accepts : ∀ w ∈ r.plan.writes, s.cases.Accepts w.case)
    (free : s.multiples.commitFault = none)
    (fresh : s.multiples.version? again.reference = again.expected)
    : ∃ outcome v,
        (k.reconcile again).Returns u outcome v
        ∧ outcome.failures = again.failures
        ∧ v.cases.records = s.cases.records
        ∧ s.SendsOnly (fun w => w.change.membership = .keep ∧ w.change.lead = none) v
        ∧ outcome.multiple
          = (again.record again.multiple.members).withVersion
              (MultipleStore.successor again.expected)
        ∧ v.multiples.records = s.multiples.records.insert again.reference outcome.multiple := by
  have later := inMemory.asked asked
  have accepted : ∀ case ∈ again.plan.writes.map CaseWrite.case, u.cases.Accepts case := by
    intro case written
    obtain ⟨w, member, rfl⟩ := List.mem_map.mp written
    obtain ⟨_, _, v, planned, same, _, _⟩ := redoes.repeated member
    exact same ▸ asked.accepts (accepts v (List.mem_append_right _ planned))
  have fresh : u.multiples.version? again.reference = again.expected := by
    rw [← fresh, MultipleStore.version?, MultipleStore.version?, asked.multiples]
  obtain ⟨outcome, v, performs, records, failures, committed⟩ := reconcile_of_accepts (k := k)
    prepared mode later accepted (asked.commitFault.trans free) fresh
  have sent : s.SendsOnly (fun w => w.change.membership = .keep ∧ w.change.lead = none) v :=
    (reconcile_sends performs prepared later fun _ => accepted).2
      (fun w member => ⟨(redoes.repeated member).1, (redoes.repeated member).2.1⟩)
      (.of_asked asked)
  refine ⟨outcome, v, performs, failures, ?_, sent, ?_, ?_⟩
  · rw [records, asked.cases, applied]
    exact redoes.afterWrites cases
  · rw [committed.record, redoes.members_again]
  · rw [committed.stored, asked.multiples]

/-- An update in place through the pool that returns without a failure is repeated with the record
that it has returned, while no write fails. Then it returns without a failure again and leaves all
cases as they are. It submits changes of values and tags at most, and commits the same record with
the next version.
-/
theorem updateBulk_repeated (k : Coordinator) (inMemory : s.InMemory)
    (stays : request.target = none) (mode : request.mode = .synchronousFanOut)
    (returns : (k.updateBulk request).Returns s outcome t) (clean : outcome.failures = [])
    : ∃ outcome' v reference version,
        (k.updateBulk { request with multiple := outcome.multiple }).Returns t.relieved outcome' v
        ∧ outcome'.failures = []
        ∧ v.cases.records = t.cases.records
        ∧ t.SendsOnly (fun w => w.change.membership = .keep ∧ w.change.lead = none) v
        ∧ outcome.multiple.reference = some reference
        ∧ outcome.multiple.version = some version
        ∧ outcome'.multiple = outcome.multiple.withVersion (version + 1)
        ∧ v.multiples.records = t.multiples.records.insert reference outcome'.multiple := by
  -- The first run has applied its plan and has committed a valid record with a version.
  obtain ⟨r, p, prepares, prepared, asked, performs⟩ := updateBulk_steps inMemory stays returns
  have later := inMemory.asked asked
  have sync : r.mode = .synchronousFanOut := prepared.mode.trans mode
  have steps := reconcile_returns performs
  have done : (Work.reconcile r).Done p outcome t :=
    steps.done prepared.posed prepared.reference sync later
  have done : r.Done s outcome t := done.asked asked
  obtain ⟨present, applied, members, free⟩ := done.clean prepared clean
  obtain ⟨_, _, committed, _, _⟩ := done
  obtain ⟨sealed, _⟩ := steps.sealed prepared.posed prepared.reference later
  have valid := (Multiple.checkInvariants_eq_ok.mp sealed.valid).1
  have own : outcome.multiple.reference = some r.reference := by
    rw [committed.record]
    exact prepared.reference
  have version : outcome.multiple.version = some (MultipleStore.successor r.expected) := by
    rw [committed.record]
    rfl
  have stored : t.multiples.records.get? r.reference = some outcome.multiple := by
    rw [committed.stored, Register.get?_insert_self]
  have accepts : ∀ w ∈ r.plan.writes, t.relieved.cases.Accepts w.case := by
    intro w member
    refine Stores.accepts_relieved ?_
    rw [applied, get?_afterWrites prepared.posed.nodup_writes member, Option.isSome_map]
    exact present w.case (List.mem_map_of_mem member)
  have kept := (Stores.InMemory.kept.carryOut (.update request)).of_returns inMemory
    (show (k.carryOut (.update request)).Returns s outcome t from returns)
  have ready : t.relieved.InMemory := ⟨kept.keyed, kept.filed, kept.unset, kept.hooks⟩
  -- The second run prepares the reconciliation that does the first one again.
  let repeated : BulkUpdate := { request with multiple := outcome.multiple }
  obtain ⟨joiners, q, prepares'⟩ :=
    prepare_of_valid (k := k) repeated valid own version stays t.relieved
  obtain ⟨asked', prepared'⟩ := prepare_returns ready prepares'
  obtain ⟨free', redoes⟩ := prepares.redoes free valid members (prepares_of_returns prepares')
  obtain ⟨outcome', v, performs', failures, cases, sent, record, records⟩ :=
    reconcile_redone (k := k) redoes prepared' mode ready asked' applied accepts
      (steps.commitFault sync later) ((MultipleStore.version?_of_get? stored).trans version)
  have returns' : (k.carryOut (.update repeated)).Returns t.relieved outcome' v := by
    rw [carryOut_eq]
    exact Round.returns_bind.mpr ⟨_, q, prepares', performs'⟩
  refine ⟨outcome', v, r.reference, _, returns', failures.trans free', cases, sent, own, version,
    ?_, records⟩
  rw [record]
  change ((outcome.multiple.withMembers outcome.multiple.members).clearSearch).withVersion _ = _
  rw [committed.record]
  rfl

end Coordinator

namespace Sample

/-- Both cases are to join, and one of them to get a value and a tag. -/
def labelling : BulkUpdate :=
  { multiple := record
    requested := [one, two]
    matched := [two]
    edits := Register.insert ∅ "amount" (.number (.natural 5))
    subGroup := "North" }

/-- Repeated with its own record, the update only counts the version up. -/
theorem repeated_of_labelling
    : ∃ outcome t outcome' v,
        (coordinator.updateBulk labelling).Returns (stores []) outcome t
        ∧ outcome.multiple.memberReferences = [one, two]
        ∧ (coordinator.updateBulk { labelling with multiple := outcome.multiple }).Returns
            t.relieved outcome' v
        ∧ v.cases.records = t.cases.records
        ∧ outcome'.multiple = outcome.multiple.withVersion 3 := by
  obtain ⟨outcome, t, returns, told⟩
      : ∃ outcome t,
          (coordinator.updateBulk labelling).Returns (stores []) outcome t
          ∧ (outcome.failures, outcome.multiple.memberReferences, outcome.multiple.version)
            = ([], [one, two], some 2) :=
    Round.exists_returns (by decide +kernel)
  simp only [Prod.mk.injEq] at told
  obtain ⟨clean, members, stamped⟩ := told
  obtain ⟨outcome', v, _, version, again, _, cases, _, _, known, record, _⟩ :=
    coordinator.updateBulk_repeated (reachable_stores []).inMemory rfl rfl returns clean
  obtain rfl : version = 2 := Option.some.inj (known.symm.trans stamped)
  exact ⟨outcome, t, outcome', v, returns, members, again, cases, record⟩

end Sample

end CaseGrouping
