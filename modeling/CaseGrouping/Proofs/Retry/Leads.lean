import CaseGrouping.Proofs.Agreement.Leads
import CaseGrouping.Proofs.Durable.Completion
import CaseGrouping.Proofs.Records.WellFormed

/-! Lead flags after a round of which some writes failed, and after its retry with the record that
it has returned. The retry writes flags where that record has them changed, and mends what can be
told from it. Two things cannot: that no member could be given the flag, and that a former lead
could not be relieved of it.
-/

namespace CaseGrouping

/-- (Unclaimed members failed cases) says that none of the members has the lead flag, and that all
of them are named as failed.
-/
structure Unclaimed (members failed : List CaseReference)
    (cases : Register CaseReference SingleCase) : Prop where
  lacks : ∀ case ∈ members, claimant? cases case = some false
  named : ∀ case ∈ members, case ∈ failed

/-- (Lingering former record failed cases case) says that the former lead is still a member and
still has its flag, as it is named as failed, while the record has another lead.
-/
structure Lingering (former : Option CaseReference) (record : Multiple)
    (failed : List CaseReference) (cases : Register CaseReference SingleCase)
    (case : CaseReference) : Prop where
  led : former = some case
  member : case ∈ record.memberReferences
  replaced : record.leadCase? ≠ some case
  flagged : claimant? cases case = some true
  named : case ∈ failed

/-- (HalfDone former record failed cases) says how the lead flags of the members are after a round
of which some writes failed: only the lead and a lingering former lead have the flag, and the lead
has it unless nobody does.
-/
structure HalfDone (former : Option CaseReference) (record : Multiple)
    (failed : List CaseReference) (cases : Register CaseReference SingleCase) : Prop where
  others
    : ∀ case ∈ record.memberReferences,
        claimant? cases case = some true
        → record.leadCase? = some case ∨ Lingering former record failed cases case
  lead
    : ∀ case,
        record.leadCase? = some case
        → claimant? cases case = some true
          ∨ Unclaimed record.memberReferences failed cases

-----------------------------------------------------------------------------------------
-- The first run
-----------------------------------------------------------------------------------------

/-- An election among members whose flags are known leaves them half done, if whoever else has the
flag is the former lead, which was to lose it.
-/
theorem Elected.halfDone {claims : CaseReference → Bool} {members : List Member}
    {record : Multiple} {first former chosen : Option CaseReference} {failures : List Failure}
    {failed : List CaseReference} {before after : Register CaseReference SingleCase}
    (elected : Elected claims (leadCandidates members) before after chosen failures)
    (flagged : Multiple.Flagged first members)
    (settled : record.members = withLead members (chosen <|> (members.map Member.case).head?))
    (exact
      : ∀ case ∈ members.map Member.case, claimant? before case = some (claims case))
    (stale
      : ∀ case ∈ members.map Member.case,
          claims case = true → first ≠ some case → former = some case ∧ case ∈ failed)
    (named : ∀ failure ∈ failures, failure.case ∈ failed)
    : HalfDone former record failed after := by
  have references : record.memberReferences = members.map Member.case := by
    rw [Multiple.memberReferences, settled, cases_withLead]
  have lead : record.leadCase? = (chosen <|> (members.map Member.case).head?) := by
    refine Multiple.leadCase?_of_flagged ?_ ?_
    · rw [settled]
      exact flagged_withLead _ _
    · rw [references]
      exact elected.leads
  rw [← references] at exact stale
  cases chosen with
  | none =>
      have asked : ∀ case ∈ record.memberReferences, case ∈ failures.map Failure.case := by
        rw [references]
        exact fun case member => elected.named rfl member
      have nobody : Unclaimed record.memberReferences failed after := by
        refine ⟨fun case member => ?_, fun case member => ?_⟩
        · rw [claimant?, elected.others case (by simp), ← claimant?, exact case member,
            elected.passed case (asked case member)]
        · obtain ⟨failure, refused, rfl⟩ := List.mem_map.mp (asked case member)
          exact named failure refused
      refine ⟨fun case member has => ?_, fun case _ => .inr nobody⟩
      rw [nobody.lacks case member] at has
      cases has
  | some chosen =>
      have flag : claimant? after chosen = some true := by
        refine elected.claimant rfl fun has => ?_
        rw [exact chosen (references ▸ elected.mem rfl), has]
      have others : ∀ case ∈ record.memberReferences, case ≠ chosen
          → claimant? after case = some (claims case) := by
        intro case member other
        rw [claimant?, elected.others case fun same => other (Option.some.inj same).symm,
          ← claimant?, exact case member]
      refine ⟨fun case member has => ?_, fun case led => .inl ?_⟩
      · by_cases here : case = chosen
        · exact .inl (lead.trans (congrArg some here.symm))
        · have claims : claims case = true :=
            Option.some.inj ((others case member here).symm.trans has)
          have other : first ≠ some case := fun asked =>
            here (Option.some.inj (elected.eq_of_claims flagged asked (references ▸ member)
              claims)).symm
          obtain ⟨led, failed⟩ := stale case member claims other
          refine .inr ⟨led, member, fun led => ?_, has, failed⟩
          exact here (Option.some.inj (lead.symm.trans led)).symm
      · cases Option.some.inj (lead.symm.trans led)
        exact flag

namespace Reconciliation

variable {r : Reconciliation} {request : RoundRequest} {s t : Stores} {outcome : RoundOutcome}

/-- A reconciliation of which some writes failed leaves the flags half done. -/
theorem Done.halfDone (done : r.Done s outcome t) (prepared : r.Prepared request s)
    (flagged : r.Flagged s.cases.records)
    : HalfDone r.multiple.leadCase? outcome.multiple (outcome.failures.map Failure.case)
        t.cases.records := by
  obtain ⟨delivered, ⟨chosen, elected, rfl⟩, committed, _, failures⟩ := done
  have posed := prepared.posed
  refine elected.halfDone (posed.flagged_members _) ?_ (fun case member => ?_)
    (fun case member claims other => ⟨?_, ?_⟩) fun failure member => ?_
  · rw [committed.record]
    rfl
  · exact posed.claims_exact posed.carried_writes prepared.valid flagged delivered member
  · exact posed.former_of_claims prepared.valid member claims other
  · have failed := posed.failed_of_claims posed.carried_writes prepared.valid member claims other
    have named := (Propagation.mem_failures_ofFaults delivered).mpr failed
    simp only [failures, List.map_append, List.mem_append]
    exact .inl (.inr named)
  · simp only [failures, List.map_append, List.mem_append]
    exact .inr (List.mem_map_of_mem member)

end Reconciliation

-----------------------------------------------------------------------------------------
-- The retry
-----------------------------------------------------------------------------------------

namespace Reconciliation

variable {r : Reconciliation} {case : CaseReference} {flag : Bool}
  {cases : Register CaseReference SingleCase}

/-- The flag of a case that a write was done to is the one of the change, or else stays. -/
theorem claimant_afterWrites {writes : List CaseWrite} {w : CaseWrite}
    (distinct : (writes.map CaseWrite.case).Nodup) (member : w ∈ writes)
    (stays : ∀ m, w.change.membership ≠ .detach m)
    (before : claimant? cases w.case = some flag)
    : claimant? (afterWrites cases writes) w.case = some (w.change.lead.getD flag) := by
  obtain ⟨c, stored, rfl⟩ := Option.map_eq_some_iff.mp before
  rw [claimant?, get?_afterWrites distinct member, stored, Option.map_some, Option.map_some,
    ChangeSet.apply_leadClaimant stays]

/-- When all writes were done, a proposed case has the flag if it is the chosen lead, except that a
member whose entry was to stay as it is has the flag that it had.
-/
theorem WellPosed.claimant_of_done (posed : r.WellPosed)
    (valid : r.multiple.validateIncoming = .ok ()) (proposed : case ∈ r.delta.proposed)
    (before : claimant? cases case = some flag)
    : claimant? (afterWrites cases r.plan.writes) case
      = some
          (if case ∈ r.multiple.memberReferences
              ∧ (r.multiple.leadCase? = some case ↔ r.lead = some case)
            then flag
            else decide (r.lead = some case)) := by
  by_cases joins : case ∈ r.delta.toAttach
  · have written := attach_mem_plan joins
    have now := claimant_afterWrites posed.nodup_writes (List.mem_append_right _ written)
      (by simp [ChangeSet.attach]) before
    rw [now, Targeting.decorate_lead, if_neg]
    · rfl
    · exact fun member => (posed.splits.mem_toAttach.mp joins).2 member.1
  · obtain ⟨stays, current⟩ := posed.stays proposed joins
    have planned := PropagationPlan.keepChange_lead r.multiple r.lead case
    rw [any_member?_lead valid current] at planned
    have now : claimant? (afterWrites cases r.plan.writes) case
        = some ((PropagationPlan.keepChange r.multiple r.lead case).lead.getD flag) := by
      by_cases written : case ∈ r.plan.writes.map CaseWrite.case
      · obtain ⟨w, member, rfl⟩ := List.mem_map.mp written
        have later := posed.carried_writes.proposed w member proposed
        have kept := membership_of_stays later joins
        rw [claimant_afterWrites posed.nodup_writes member (by simp [kept]) before,
          lead_of_stays posed later stays, posed.plannedLead_of_stays stays]
      · rw [claimant?, get?_afterWrites_of_absent written, ← claimant?, before]
        -- A flag that was to change would have been written.
        cases lead : (PropagationPlan.keepChange r.multiple r.lead case).lead with
        | none => rfl
        | some flag' =>
            have sent := List.mem_append_right r.plan.detach (keep_mem_plan stays lead)
            exact absurd (List.mem_map_of_mem sent) written
    rw [now, planned]
    by_cases same : r.multiple.leadCase? = some case ↔ r.lead = some case
    · rw [if_pos (by simpa using same), if_pos ⟨current, same⟩]
      rfl
    · rw [if_neg (by simpa using same), if_neg fun both => same both.2]
      rfl

end Reconciliation

/-- The flags that a retry leaves when it has put its lead in the place of the one of a record that
was half done: the lead has its flag, unless it had been lead before when nobody could be given the
flag, and besides only a lingering former lead has one.
-/
theorem HalfDone.claimant_iff {former lead : Option CaseReference} {record : Multiple}
    {failed : List CaseReference} {before after : Register CaseReference SingleCase}
    {case : CaseReference} {flag : Bool} (half : HalfDone former record failed before)
    (old : claimant? before case = some flag)
    (new
      : claimant? after case
        = some
            (if case ∈ record.memberReferences
                ∧ (record.leadCase? = some case ↔ lead = some case)
              then flag
              else decide (lead = some case)))
    : claimant? after case = some true
      ↔ lead = some case
          ∧ ¬ (record.leadCase? = some case ∧ Unclaimed record.memberReferences failed before)
        ∨ lead ≠ some case ∧ Lingering former record failed before case := by
  rw [new, Option.some.injEq]
  by_cases kept : case ∈ record.memberReferences
      ∧ (record.leadCase? = some case ↔ lead = some case)
  · rw [if_pos kept]
    obtain ⟨member, same⟩ := kept
    constructor
    · rintro rfl
      by_cases led : lead = some case
      · refine .inl ⟨led, fun ⟨_, nobody⟩ => ?_⟩
        cases old.symm.trans (nobody.lacks case member)
      · have lingers := (half.others case member old).resolve_left fun was => led (same.mp was)
        exact .inr ⟨led, lingers⟩
    · rintro (⟨led, claimed⟩ | ⟨_, lingers⟩)
      · have was := same.mpr led
        have flagged := (half.lead case was).resolve_right fun nobody => claimed ⟨was, nobody⟩
        exact Option.some.inj (old.symm.trans flagged)
      · exact Option.some.inj (old.symm.trans lingers.flagged)
  · rw [if_neg kept, decide_eq_true_iff]
    constructor
    · exact fun led => .inl ⟨led, fun ⟨was, _⟩ =>
        kept ⟨Multiple.mem_of_leadCase? was, iff_of_true was led⟩⟩
    · rintro (⟨led, _⟩ | ⟨other, lingers⟩)
      · exact led
      · exact absurd ⟨lingers.member, iff_of_false lingers.replaced other⟩ kept

/-- The stores in which no write fails any more. -/
def Stores.relieved (s : Stores) : Stores :=
  { s with cases := { s.cases with writeFaults := ∅, crashing := [] } }

theorem Stores.accepts_relieved {s : Stores} {case : CaseReference}
    (stored : (s.cases.records.get? case).isSome)
    : s.relieved.cases.Accepts case :=
  ⟨stored, rfl, List.not_mem_nil⟩

/-- (s.Retriable m record) says that a valid record with a version is stored under the reference m,
that cases and records agree on membership, and that the next commit meets no fault.
-/
structure Stores.Retriable (s : Stores) (m : MultipleReference) (record : Multiple) : Prop where
  inMemory : s.InMemory
  agree : s.MembersAgree
  free : s.multiples.commitFault = none
  stored : s.multiples.records.get? m = some record
  own : record.reference = some m
  valid : record.validateIncoming = .ok ()
  version : ∃ v, record.version = some v

namespace Stores.Retriable

variable {s : Stores} {m : MultipleReference} {record : Multiple} (ready : s.Retriable m record)

include ready

theorem relieved : s.relieved.Retriable m record :=
  { ready with
    inMemory :=
      ⟨ready.inMemory.keyed, ready.inMemory.filed, ready.inMemory.unset, ready.inMemory.hooks⟩ }

theorem belongs (case : CaseReference)
    : case ∈ record.memberReferences ↔ owner? s.cases.records case = some m := by
  rw [← Stores.membersOf_of_get? ready.stored]
  exact ready.agree m case

theorem present {case : CaseReference} (member : case ∈ record.memberReferences)
    : (s.cases.records.get? case).isSome := by
  obtain ⟨c, found, _⟩ := Option.bind_eq_some_iff.mp ((ready.belongs case).mp member)
  exact Option.isSome_iff_exists.mpr ⟨c, found⟩

end Stores.Retriable

namespace Coordinator

variable {k : Coordinator} {s t u : Stores} {request : BulkUpdate} {r : Reconciliation}
  {outcome : RoundOutcome} {reference : MultipleReference} {v : UInt64}

/-- An update in place of a valid record with a version comes to a reconciliation. -/
theorem prepare_of_valid (request : BulkUpdate)
    (valid : request.multiple.validateIncoming = .ok ())
    (own : request.multiple.reference = some reference)
    (version : request.multiple.version = some v) (stays : request.target = none) (s : Stores)
    : ∃ joiners t,
        (k.prepare (.update request)).Returns s
          (.reconcile (.ofUpdate request reference (some v) joiners)) t := by
  let wanted := MembershipDelta.resolve request.multiple.memberReferences request.requested
    request.matched
  let checked := Joiners.check k.scope reference wanted.toAttach s
  refine ⟨checked.1, checked.2, ?_⟩
  have prepares : k.prepare (.update request) = k.prepareUpdate request := rfl
  rw [prepares, prepareUpdate]
  refine Round.returns_bind.mpr ⟨(), s, Round.returns_check.mpr ⟨valid, rfl⟩, ?_⟩
  simp only [own, expectedVersion, version, pure_bind, prepareTarget, stays]
  exact Round.returns_bind.mpr ⟨checked.1, checked.2, Round.returns_attempt.mpr rfl, rfl⟩

/-- A commit of a round that returns has met no fault, so none is left. -/
theorem Reconciled.commitFault (reconciled : Reconciled k r s outcome t)
    (mode : r.mode = .synchronousFanOut) (inMemory : s.InMemory)
    : t.multiples.commitFault = none := by
  obtain ⟨propagated, settled, committed, _, _⟩ := reconciled
  obtain ⟨inMemory', _, _⟩ := propagate_returns inMemory propagated
  obtain ⟨wrote, _⟩ := settle_synchronous mode inMemory'.keyed settled
  exact commitFault_of_commit (inMemory'.wrote wrote).hooks committed

/-- A reconciliation whose cases accept their writes does them all, and commits the members that
they lead to, unless it meets another version or a fault.
-/
theorem reconcile_of_accepts {q : RoundRequest} (prepared : r.Prepared q u)
    (mode : q.mode = .synchronousFanOut) (inMemory : s.InMemory)
    (accepts : ∀ case ∈ r.plan.writes.map CaseWrite.case, s.cases.Accepts case)
    (free : s.multiples.commitFault = none)
    (fresh : s.multiples.version? r.reference = r.expected)
    : ∃ outcome t,
        (k.reconcile r).Returns s outcome t
        ∧ t.cases.records = afterWrites s.cases.records r.plan.writes
        ∧ outcome.failures = r.failures
        ∧ r.Committed (r.members (r.plan.writes.map CaseWrite.case)) outcome.multiple
            s.multiples t.multiples := by
  let written := r.plan.writes.map CaseWrite.case
  have work : (Work.reconcile r).Prepared q u := prepared
  obtain ⟨u, ends, wrote, records⟩ :=
    k.perform_of_accepts work trivial mode inMemory.keyed accepts
  obtain ⟨record, t, commits, committed, cases⟩ :=
    commit_of_fresh (k := k) (s := u) (r.members written) prepared.reference
      (by rw [wrote.multiples, free]) (inMemory.wrote wrote).hooks
      (by rw [wrote.multiples, fresh])
  rw [wrote.multiples] at committed
  refine ⟨_, t, ends.trans (Round.returns_bind.mpr ⟨record, t, commits, rfl⟩), ?_, rfl,
    committed⟩
  rw [cases, records]
  rfl

/-- An update in place that returns has prepared a reconciliation and carried it out. -/
theorem updateBulk_steps (inMemory : s.InMemory) (stays : request.target = none)
    (returns : (k.updateBulk request).Returns s outcome t)
    : ∃ r p,
        k.Prepares s (.update request) (.reconcile r)
        ∧ r.Prepared (.update request) s
        ∧ s.Asked p
        ∧ (k.reconcile r).Returns p outcome t := by
  obtain ⟨work, p, prepares, performs⟩ := carryOut_returns
    (show (k.carryOut (.update request)).Returns s outcome t from returns)
  obtain ⟨r, rfl⟩ := (prepares_of_returns prepares).reconciles stays
  obtain ⟨asked, prepared⟩ := prepare_returns inMemory prepares
  exact ⟨r, p, prepares_of_returns prepares, prepared, asked, performs⟩

/-- An update in place of the record that is stored leaves one that it can be retried with. -/
theorem updateBulk_retriable (inMemory : s.InMemory) (agree : s.MembersAgree)
    (carries : (RoundRequest.update request).Carries s)
    (own : request.multiple.reference = some reference) (stays : request.target = none)
    (mode : request.mode = .synchronousFanOut)
    (returns : (k.updateBulk request).Returns s outcome t)
    : t.Retriable reference outcome.multiple := by
  have returned : (k.carryOut (.update request)).Returns s outcome t := returns
  obtain ⟨r, p, _, prepared, asked, performs⟩ := updateBulk_steps inMemory stays returns
  obtain rfl : r.reference = reference := Option.some.inj ((prepared.named own).symm.trans own)
  have syncs : r.mode = .synchronousFanOut := prepared.mode.trans mode
  have later := inMemory.asked asked
  have steps := reconcile_returns performs
  have done : (Work.reconcile r).Done p outcome t :=
    steps.done prepared.posed prepared.reference syncs later
  have done : r.Done s outcome t := done.asked asked
  obtain ⟨sealed, _⟩ := steps.sealed prepared.posed prepared.reference later
  have agree' := done.membersAgree prepared carries inMemory agree
  obtain ⟨_, _, committed, _, _⟩ := done
  exact
    { inMemory := (Stores.InMemory.kept.carryOut (.update request)).of_returns inMemory returned
      agree := agree'
      free := steps.commitFault syncs later
      stored := by rw [committed.stored, Register.get?_insert_self]
      own := by rw [committed.record]; exact prepared.reference
      valid := (Multiple.checkInvariants_eq_ok.mp sealed.valid).1
      version := ⟨_, by rw [committed.record]; rfl⟩ }

/-- It leaves the flags of its members half done. -/
theorem updateBulk_halfDone (inMemory : s.InMemory) (consistent : s.Consistent)
    (carries : (RoundRequest.update request).Carries s)
    (own : request.multiple.reference = some reference) (stays : request.target = none)
    (mode : request.mode = .synchronousFanOut)
    (returns : (k.updateBulk request).Returns s outcome t)
    : HalfDone request.multiple.leadCase? outcome.multiple (outcome.failures.map Failure.case)
        t.cases.records := by
  have returned : (k.carryOut (.update request)).Returns s outcome t := returns
  obtain ⟨work, prepared, done⟩ :=
    carryOut_done inMemory consistent.members carries mode returned
  cases work with
  | reconcile r =>
      have prepared : r.Prepared (.update request) s := prepared
      have same : r.multiple = request.multiple :=
        prepared.carried.trans (Multiple.withReference_of_reference (prepared.named own))
      have flagged : r.Flagged s.cases.records := fun x member => by
        rw [same] at member
        exact carries.leads consistent member
      have half := Reconciliation.Done.halfDone done prepared flagged
      rwa [same] at half
  | move m => cases stays.symm.trans (Movement.Prepared.named prepared)

/-- An update in place of a stored record succeeds while all cases accept their writes. The lead
that it commits belongs to the multiple, and the flag of a case that does is the one that it had or
that the record has it changed to.
-/
theorem updateBulk_of_accepts (ready : s.Retriable reference request.multiple)
    (accepts : ∀ case, (s.cases.records.get? case).isSome → s.cases.Accepts case)
    (stays : request.target = none) (mode : request.mode = .synchronousFanOut)
    : ∃ outcome t,
        (k.updateBulk request).Returns s outcome t
        ∧ (∀ case,
            outcome.multiple.leadCase? = some case
            → owner? t.cases.records case = some reference)
        ∧ ∀ case,
            owner? t.cases.records case = some reference
            → ∃ flag,
                claimant? s.cases.records case = some flag
                ∧ claimant? t.cases.records case
                  = some
                      (if case ∈ request.multiple.memberReferences
                          ∧ (request.multiple.leadCase? = some case
                            ↔ outcome.multiple.leadCase? = some case)
                        then flag
                        else decide (outcome.multiple.leadCase? = some case)) := by
  obtain ⟨v, version⟩ := ready.version
  obtain ⟨joiners, p, prepares⟩ :=
    prepare_of_valid (k := k) request ready.valid ready.own version stays s
  obtain ⟨asked, prepared⟩ := prepare_returns ready.inMemory prepares
  let r := Reconciliation.ofUpdate request reference (some v) joiners
  have prepared : r.Prepared (.update request) s := prepared
  have present : ∀ case, case ∈ r.delta.proposed ∨ case ∈ r.delta.toDetach
      → (s.cases.records.get? case).isSome := fun case =>
    prepared.stored fun case member => ready.present member
  have acceptable : ∀ case ∈ r.plan.writes.map CaseWrite.case, p.cases.Accepts case := by
    intro case written
    refine asked.accepts (accepts case (present case ?_))
    obtain ⟨w, member, rfl⟩ := List.mem_map.mp written
    rcases List.mem_append.mp member with leaves | stays
    · exact .inr (Reconciliation.mem_detach_plan.mp leaves).1
    · exact .inl (prepared.posed.proposed stays)
  have fresh : p.multiples.version? r.reference = some v := by
    rw [MultipleStore.version?, asked.multiples]
    exact (MultipleStore.version?_of_get? ready.stored).trans version
  obtain ⟨outcome, t, performs, records, _, committed⟩ :=
    reconcile_of_accepts (k := k) prepared mode (ready.inMemory.asked asked) acceptable
      (asked.commitFault.trans ready.free) fresh
  obtain ⟨references, lead⟩ : outcome.multiple.memberReferences = r.delta.proposed
      ∧ outcome.multiple.leadCase? = r.lead := by
    refine prepared.posed.listed_of_plan ?_
    rw [committed.record]
    rfl
  have returns : (k.carryOut (.update request)).Returns s outcome t := by
    rw [carryOut_eq]
    exact Round.returns_bind.mpr ⟨_, p, prepares, performs⟩
  -- The cases of the multiple are the proposed ones, by the agreement that the round leaves.
  have after : t.Retriable reference outcome.multiple :=
    updateBulk_retriable ready.inMemory ready.agree ⟨_, ready.own, ready.stored⟩ ready.own stays
      mode returns
  have belongs : ∀ case, case ∈ r.delta.proposed
      ↔ owner? t.cases.records case = some reference := fun case => by
    rw [← after.belongs case, references]
  refine ⟨outcome, t, returns, fun case led => ?_, fun case belonging => ?_⟩
  · exact (belongs case).mp (prepared.posed.leads.mem (lead.symm.trans led))
  · have proposed := (belongs case).mpr belonging
    obtain ⟨c, found⟩ := Option.isSome_iff_exists.mp (present case (.inl proposed))
    have old : claimant? s.cases.records case = some c.leadClaimant := by
      rw [claimant?, found]
      rfl
    refine ⟨_, old, ?_⟩
    rw [lead, records, asked.cases]
    exact prepared.posed.claimant_of_done prepared.valid proposed old

/-- An update in place of which some writes have failed is retried with the record that it has
returned, while no write fails any more. Then the lead that is committed belongs to the multiple,
and of the cases that do it is the one with the flag, with two exceptions. A lead that the first
run has committed when nobody could be given the flag stays without it, and a former lead that the
first run has replaced but could not relieve keeps the flag.
-/
theorem updateBulk_retried (k : Coordinator) (inMemory : s.InMemory)
    (consistent : s.Consistent) (carries : (RoundRequest.update request).Carries s)
    (own : request.multiple.reference = some reference) (stays : request.target = none)
    (mode : request.mode = .synchronousFanOut)
    (returns : (k.updateBulk request).Returns s outcome t)
    : ∃ outcome' v,
        (k.updateBulk { request with multiple := outcome.multiple }).Returns t.relieved outcome' v
        ∧ (∀ case,
            outcome'.multiple.leadCase? = some case
            → owner? v.cases.records case = some reference)
        ∧ ∀ case,
            owner? v.cases.records case = some reference
            → (claimant? v.cases.records case = some true
              ↔ outcome'.multiple.leadCase? = some case
                  ∧ ¬ (outcome.multiple.leadCase? = some case
                    ∧ Unclaimed outcome.multiple.memberReferences
                        (outcome.failures.map Failure.case) t.cases.records)
                ∨ outcome'.multiple.leadCase? ≠ some case
                  ∧ Lingering request.multiple.leadCase? outcome.multiple
                      (outcome.failures.map Failure.case) t.cases.records case) := by
  have ready := updateBulk_retriable inMemory consistent.members carries own stays mode returns
  have half := updateBulk_halfDone inMemory consistent carries own stays mode returns
  let retry : BulkUpdate := { request with multiple := outcome.multiple }
  have ready' : t.relieved.Retriable reference retry.multiple := ready.relieved
  obtain ⟨outcome', v, returns', led, flags⟩ :=
    updateBulk_of_accepts (k := k) ready' (fun _ => Stores.accepts_relieved) stays mode
  refine ⟨outcome', v, returns', led, fun case belongs => ?_⟩
  obtain ⟨flag, old, new⟩ := flags case belongs
  exact half.claimant_iff old new

end Coordinator

-----------------------------------------------------------------------------------------
-- Samples
-----------------------------------------------------------------------------------------

namespace Sample

def three : CaseReference :=
  ⟨"6", by decide, by decide⟩

/-- A record of the first multiple that lists the first case as lead, and the second one. -/
def pair : Multiple :=
  record.withMembers [{ case := one, lead := true }, { case := two }]

/-- The two cases belong to the multiple, a third one to none; writes to one case are refused. -/
def paired (refusing : CaseReference) : Stores where
  cases :=
    { CaseStore.ofList
        [ { reference := one, multiple := some group, leadClaimant := true },
          { reference := two, multiple := some group },
          { reference := three } ] with
      writeFaults := Register.insert ∅ refusing ⟨.conflict "held", none⟩ }
  multiples := { records := Register.insert ∅ group pair }

theorem reachable_paired (refusing : CaseReference) : (paired refusing).Reachable := by
  have seeded : Stores.Reachable { multiples := { records := Register.insert ∅ group pair } } :=
    .seed (m := pair) (.empty (s := {}) rfl rfl rfl rfl) rfl
  exact .set
    (.insert { reference := three }
      (.insert { reference := two, multiple := some group }
        (.insert { reference := one, multiple := some group, leadClaimant := true } seeded)))
    rfl rfl rfl rfl

theorem consistent_paired (refusing : CaseReference) : (paired refusing).Consistent := by
  have stored : ∀ case, (paired refusing).cases.records.get? case
      = if case = three then some { reference := three }
        else if case = two then some { reference := two, multiple := some group }
        else if case = one then
          some { reference := one, multiple := some group, leadClaimant := true }
        else none := by
    intro case
    simp only [paired, CaseStore.ofList, List.foldl_cons, List.foldl_nil, CaseStore.insert,
      Register.get?_insert]
    rfl
  have listed : ∀ r, (paired refusing).multiples.records.get? r
      = if r = group then some pair else none := by
    intro r
    simp only [paired, Register.get?_insert]
    rfl
  have owned : ∀ case, owner? (paired refusing).cases.records case
      = if case ∈ [one, two] then some group else none := by
    intro case
    rw [owner?, stored]
    by_cases third : case = three
    · subst third
      decide
    · by_cases second : case = two
      · subst second
        decide
      · by_cases first : case = one
        · subst first
          decide
        · simp [third, second, first]
  refine ⟨fun r case => ?_, fun r m found x member => ?_⟩
  · rw [owned]
    by_cases here : r = group
    · subst here
      rw [Stores.membersOf_of_get? ((listed group).trans (if_pos rfl))]
      change case ∈ [one, two] ↔ _
      split <;> simp_all
    · rw [Stores.membersOf_of_absent ((listed r).trans (if_neg here))]
      split <;> simp [Ne.symm here]
  · rw [listed] at found
    split at found
    · cases found
      rw [claimant?, stored]
      rcases List.mem_pair.mp member with rfl | rfl <;> decide
    · cases found

/-- The members are to be these, in this order. -/
def arranging (requested : List CaseReference) : BulkUpdate :=
  { multiple := pair, requested }

theorem carries_arranging (refusing : CaseReference) (requested : List CaseReference)
    : (RoundRequest.update (arranging requested)).Carries (paired refusing) :=
  ⟨group, rfl, rfl⟩

/-- The outcomes of an update and of its retry with the returned record when no write fails any
more, with the stores that they leave.
-/
def twice (request : BulkUpdate) (s : Stores)
    : Option ((RoundOutcome × Stores) × RoundOutcome × Stores) :=
  match (coordinator.updateBulk request).runOn s with
  | (.error _, _) => none
  | (.ok outcome, t) =>
      let retry := { request with multiple := outcome.multiple }
      match (coordinator.updateBulk retry).runOn t.relieved with
      | (.error _, _) => none
      | (.ok outcome', v) => some ((outcome, t), outcome', v)

theorem returns_of_twice {request : BulkUpdate} {s t v : Stores} {outcome outcome' : RoundOutcome}
    (ran : twice request s = some ((outcome, t), outcome', v))
    : (coordinator.updateBulk request).Returns s outcome t
      ∧ (coordinator.updateBulk { request with multiple := outcome.multiple }).Returns t.relieved
          outcome' v := by
  unfold twice at ran
  split at ran
  · cases ran
  next first =>
    dsimp only at ran
    split at ran
    · cases ran
    next second =>
      cases ran
      exact ⟨first, second⟩

/-- The second case is to lead, but cannot be written, so the first one stays lead. After the retry
the lead is the one with the flag.
-/
theorem mended_of_refused_lead
    : ∃ outcome t outcome' v,
        (coordinator.updateBulk (arranging [two, one, three])).Returns (paired two) outcome t
        ∧ outcome.failures.map Failure.case = [two, two]
        ∧ (coordinator.updateBulk
              { arranging [two, one, three] with multiple := outcome.multiple }).Returns t.relieved
            outcome' v
        ∧ ∀ case,
            owner? v.cases.records case = some group
            → (claimant? v.cases.records case = some true
              ↔ outcome'.multiple.leadCase? = some case) := by
  have runs : (twice (arranging [two, one, three]) (paired two)).map
      (fun ((outcome, t), _) =>
        (outcome.failures.map Failure.case, outcome.multiple.leadCase?,
          claimant? t.cases.records one))
      = some ([two, two], some one, some true) := by
    decide +kernel
  obtain ⟨⟨⟨outcome, t⟩, _, _⟩, ran, facts⟩ := Option.map_eq_some_iff.mp runs
  simp only [Prod.mk.injEq] at facts
  obtain ⟨failures, lead, flagged⟩ := facts
  obtain ⟨returns, _⟩ := returns_of_twice ran
  have own : (arranging [two, one, three]).multiple.reference = some group := rfl
  obtain ⟨outcome', v, again, _, flags⟩ := coordinator.updateBulk_retried
    (reachable_paired two).inMemory (consistent_paired two) (carries_arranging two _) own rfl rfl
    returns
  refine ⟨outcome, t, outcome', v, returns, failures, again, fun case belongs => ?_⟩
  have claimed : ¬ Unclaimed outcome.multiple.memberReferences
      (outcome.failures.map Failure.case) t.cases.records := by
    intro nobody
    have lacks := nobody.lacks one (Multiple.mem_of_leadCase? lead)
    cases flagged.symm.trans lacks
  have relieved : ¬ Lingering (arranging [two, one, three]).multiple.leadCase? outcome.multiple
      (outcome.failures.map Failure.case) t.cases.records case := by
    intro lingers
    cases lingers.led
    exact lingers.replaced lead
  rw [flags case belongs]
  simp [claimed, relieved]

/-- (Unmended s request case) says that after an update on consistent stores and its retry, a case
of the multiple has the flag without being lead, or is lead without having the flag.
-/
def Unmended (s : Stores) (request : BulkUpdate) (case : CaseReference) : Prop :=
  s.Consistent
  ∧ (RoundRequest.update request).Carries s
  ∧ ∃ outcome t outcome' v,
      (coordinator.updateBulk request).Returns s outcome t
      ∧ outcome.failures ≠ []
      ∧ (coordinator.updateBulk { request with multiple := outcome.multiple }).Returns t.relieved
          outcome' v
      ∧ owner? v.cases.records case = some group
      ∧ ¬ (claimant? v.cases.records case = some true
          ↔ outcome'.multiple.leadCase? = some case)

theorem unmended_of_twice {s : Stores} {request : BulkUpdate} {case : CaseReference}
    (failed : List CaseReference) (lead : Option CaseReference) (flag : Bool)
    (consistent : s.Consistent) (carries : (RoundRequest.update request).Carries s)
    (runs
      : (twice request s).map (fun ((outcome, _), outcome', v) =>
          (outcome.failures.map Failure.case, outcome'.multiple.leadCase?,
            owner? v.cases.records case, claimant? v.cases.records case))
        = some (failed, lead, some group, some flag))
    (some : failed ≠ []) (wrong : ¬ (flag = true ↔ lead = Option.some case))
    : Unmended s request case := by
  obtain ⟨⟨⟨outcome, t⟩, outcome', v⟩, ran, facts⟩ := Option.map_eq_some_iff.mp runs
  simp only [Prod.mk.injEq] at facts
  obtain ⟨failures, led, belongs, flagged⟩ := facts
  obtain ⟨returns, again⟩ := returns_of_twice ran
  refine ⟨consistent, carries, outcome, t, outcome', v, returns, fun none => some ?_, again,
    belongs, ?_⟩
  · rw [← failures, none, List.map_nil]
  · rw [flagged, led, Option.some.injEq]
    exact wrong

/-- A former lead keeps a flag that could not be taken from it, and the only member that is left
stays without one, as it was lead already when the retry began.
-/
theorem flags_not_mended
    : Unmended (paired one) (arranging [two, one, three]) one
      ∧ Unmended (paired two) (arranging [two]) two :=
  ⟨unmended_of_twice [one] (some two) true (consistent_paired one) (carries_arranging one _)
      (by decide +kernel) (by simp) (by decide),
    unmended_of_twice [two, two] (some two) false (consistent_paired two)
      (carries_arranging two _) (by decide +kernel) (by simp) (by decide)⟩

end Sample

end CaseGrouping
