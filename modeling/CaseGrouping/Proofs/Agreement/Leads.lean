import CaseGrouping.Proofs.Agreement.Membership

/-! Records and cases agree on leads after rounds of which any writes fail, except for cases that
the outcome names as failed.
-/

namespace CaseGrouping

-----------------------------------------------------------------------------------------
-- Lead flags after the writes
-----------------------------------------------------------------------------------------

namespace Reconciliation

variable {r : Reconciliation} {fault : CaseReference → Option Failure} {writes : List CaseWrite}
  {case : CaseReference} {written : List CaseReference}
  {before after : Register CaseReference SingleCase}

/-- The lead flags of the members are those of their cases. -/
def Flagged (r : Reconciliation) (cases : Register CaseReference SingleCase) : Prop :=
  ∀ x ∈ r.multiple.members, claimant? cases x.case = some x.lead

/-- A member has the flag of the lead before the writes. -/
theorem Flagged.claimant (flagged : r.Flagged before)
    (valid : r.multiple.validateIncoming = .ok ())
    (member : case ∈ r.multiple.memberReferences)
    : claimant? before case = some (decide (r.multiple.leadCase? = some case)) := by
  obtain ⟨x, listed, rfl⟩ := List.mem_map.mp member
  rw [flagged x listed, Option.some.injEq, Bool.eq_iff_iff, decide_eq_true_iff]
  exact Multiple.lead_iff_leadCase? valid listed

/-- The write to a case that stays carries the planned flag. -/
theorem lead_of_stays {w : CaseWrite} (posed : r.WellPosed) (member : w ∈ r.plan.write)
    (stays : w.case ∈ r.delta.unchanged)
    : w.change.lead = r.plan.plannedLead? w.case := by
  rw [posed.plannedLead_of_stays stays]
  rcases mem_write_plan.mp member with ⟨joins, _⟩ | ⟨_, change, _⟩
  · exact absurd (posed.splits.mem_unchanged.mp stays).1 (posed.splits.mem_toAttach.mp joins).2
  · rw [change, Targeting.decorate_lead]

/-- When nobody joins or leaves and the lead stays, every write keeps its case where it is and does
not touch its flag.
-/
theorem WellPosed.keeps_of_nobody (posed : r.WellPosed)
    (valid : r.multiple.validateIncoming = .ok ()) (joins : r.delta.toAttach = [])
    (leaves : r.delta.toDetach = []) (lead : r.multiple.leadCase? = r.lead) {w : CaseWrite}
    (member : w ∈ r.plan.writes)
    : w ∈ r.plan.write ∧ w.change.membership = .keep ∧ w.change.lead = none := by
  rcases List.mem_append.mp member with detached | written
  · have leaving := (mem_detach_plan.mp detached).1
    rw [leaves] at leaving
    cases leaving
  · have absent : w.case ∉ r.delta.toAttach := by
      rw [joins]
      exact List.not_mem_nil
    obtain ⟨unchanged, current⟩ := posed.stays (posed.proposed written) absent
    refine ⟨written, membership_of_stays written absent, ?_⟩
    rw [lead_of_stays posed written unchanged, posed.plannedLead_of_stays unchanged,
      PropagationPlan.keepChange_lead, any_member?_lead valid current, lead, if_pos rfl]

/-- What is taken for the lead flags after the writes are those of the stored cases, whichever
writes failed.
-/
theorem WellPosed.claims_exact (posed : r.WellPosed) (carried : r.Carried writes)
    (valid : r.multiple.validateIncoming = .ok ()) (flagged : r.Flagged before)
    (delivered : Delivered fault writes before after)
    (member
      : case ∈ (r.members (Propagation.ofFaults fault writes).written).map Member.case)
    : claimant? after case
      = some (r.claims (Propagation.ofFaults fault writes).written case) := by
  rw [claims_eq]
  by_cases written : case ∈ (Propagation.ofFaults fault writes).written
  · rw [if_pos written]
    obtain ⟨sent, free⟩ := Propagation.mem_written_ofFaults.mp written
    rcases posed.mem_members.mp member with ⟨proposed, _⟩ | ⟨_, unwritten⟩
    · by_cases joins : case ∈ r.delta.toAttach
      · obtain ⟨flag, _, now⟩ := delivered.claimant (w := ⟨case, _⟩)
          (carried.planned _ (attach_mem_plan joins)) free (by simp [ChangeSet.attach])
        rw [now, posed.plannedLead_of_joins joins, Targeting.decorate_lead]
        rfl
      · obtain ⟨stays, current⟩ := posed.stays proposed joins
        obtain ⟨w, carriedOut, rfl⟩ := List.mem_map.mp sent
        have planned := carried.proposed w carriedOut proposed
        have kept := membership_of_stays planned joins
        obtain ⟨flag, old, now⟩ := delivered.claimant carriedOut free (by simp [kept])
        rw [flagged.claimant valid current] at old
        cases old
        rw [now, lead_of_stays posed planned stays]
    · exact absurd written unwritten
  · rw [if_neg written, claimant?, delivered.get?_of_not_written written]
    refine flagged.claimant valid ?_
    rcases posed.mem_members.mp member with ⟨proposed, joins⟩ | ⟨leaves, _⟩
    · exact (posed.stays proposed fun joining => written (joins joining)).2
    · exact (posed.splits.mem_toDetach.mp leaves).1

/-- A member that has the flag without being the chosen lead was the lead before. -/
theorem WellPosed.former_of_claims {written : List CaseReference} (posed : r.WellPosed)
    (valid : r.multiple.validateIncoming = .ok ())
    (member : case ∈ (r.members written).map Member.case)
    (claims : r.claims written case = true) (other : r.lead ≠ some case)
    : r.multiple.leadCase? = some case := by
  rw [claims_eq] at claims
  by_cases done : case ∈ written
  · rw [if_pos done] at claims
    rcases posed.mem_members.mp member with ⟨proposed, _⟩ | ⟨_, undone⟩
    · by_cases joins : case ∈ r.delta.toAttach
      · rw [posed.plannedLead_of_joins joins] at claims
        exact absurd (of_decide_eq_true claims) other
      · obtain ⟨stays, current⟩ := posed.stays proposed joins
        rw [posed.plannedLead_of_stays stays, PropagationPlan.keepChange_lead,
          any_member?_lead valid current, decide_eq_false other] at claims
        split at claims
        · exact of_decide_eq_true claims
        · cases claims
    · exact absurd done undone
  · rw [if_neg done] at claims
    exact of_decide_eq_true claims

/-- Such a member could not be written, as the old lead was to lose its flag. -/
theorem WellPosed.failed_of_claims (posed : r.WellPosed) (carried : r.Carried writes)
    (valid : r.multiple.validateIncoming = .ok ())
    (member
      : case ∈ (r.members (Propagation.ofFaults fault writes).written).map Member.case)
    (claims : r.claims (Propagation.ofFaults fault writes).written case = true)
    (other : r.lead ≠ some case)
    : (fault case).isSome := by
  have failed : case ∈ writes.map CaseWrite.case
      → case ∉ (Propagation.ofFaults fault writes).written → (fault case).isSome := by
    intro sent unwritten
    rw [Propagation.mem_written_ofFaults] at unwritten
    exact Option.isSome_iff_ne_none.mpr fun free => unwritten ⟨sent, free⟩
  have old := posed.former_of_claims valid member claims other
  have current : case ∈ r.multiple.memberReferences := Multiple.mem_of_leadCase? old
  rcases posed.mem_members.mp member with ⟨proposed, _⟩ | ⟨leaves, unwritten⟩
  · have stays := (posed.stays proposed fun joins =>
      (posed.splits.mem_toAttach.mp joins).2 current).1
    have demoted : (PropagationPlan.keepChange r.multiple r.lead case).lead = some false := by
      rw [PropagationPlan.keepChange_lead, any_member?_lead valid current, decide_eq_true old,
        decide_eq_false other]
      rfl
    have unwritten : case ∉ (Propagation.ofFaults fault writes).written := by
      intro done
      rw [claims_eq, if_pos done, posed.plannedLead_of_stays stays, demoted] at claims
      cases claims
    exact failed (List.mem_map_of_mem (carried.planned _ (keep_mem_plan stays demoted))) unwritten
  · exact failed (carried.leaving case leaves) unwritten

end Reconciliation

-----------------------------------------------------------------------------------------
-- Leads after the election
-----------------------------------------------------------------------------------------

/-- (LeadsAgree members failed cases) says that members have the lead flags of their cases, unless
they are named as failed, and that the case of the lead has the flag, unless all of them are.
-/
structure LeadsAgree (members : List Member) (failed : List CaseReference)
    (cases : Register CaseReference SingleCase) : Prop where
  flags : ∀ x ∈ members, x.case ∉ failed → claimant? cases x.case = some x.lead
  lead
    : ∀ x ∈ members,
        x.lead = true
        → claimant? cases x.case = some true ∨ ∀ y ∈ members, y.case ∈ failed

/-- Cases that are no members make no difference. -/
theorem LeadsAgree.congr {members : List Member} {failed : List CaseReference}
    {before after : Register CaseReference SingleCase} (agree : LeadsAgree members failed before)
    (same : ∀ x ∈ members, after.get? x.case = before.get? x.case)
    : LeadsAgree members failed after := by
  refine ⟨fun x member free => ?_, fun x member flag => ?_⟩
  · rw [claimant?, same x member]
    exact agree.flags x member free
  · rw [claimant?, same x member]
    exact agree.lead x member flag

/-- If all members are named as failed, there is nothing to agree on. -/
theorem LeadsAgree.of_all_failed {members : List Member} {failed : List CaseReference}
    {cases : Register CaseReference SingleCase} (all : ∀ x ∈ members, x.case ∈ failed)
    : LeadsAgree members failed cases :=
  ⟨fun x member free => absurd (all x member) free, fun _ _ _ => .inr all⟩

/-- An election among members whose flags are known leaves them in agreement on the lead that it
chooses. Whoever else has the flag was to lose it, which has failed.
-/
theorem Elected.leadsAgree {claims : CaseReference → Bool} {members : List Member}
    {first : Option CaseReference} {chosen : CaseReference} {failures : List Failure}
    {failed : List CaseReference} {before after : Register CaseReference SingleCase}
    (elected : Elected claims (leadCandidates members) before after (some chosen) failures)
    (flagged : Multiple.Flagged first members)
    (exact
      : ∀ case ∈ members.map Member.case, claimant? before case = some (claims case))
    (stale
      : ∀ case ∈ members.map Member.case,
          claims case = true → first ≠ some case → case ∈ failed)
    : LeadsAgree (withLead members (some chosen)) failed after := by
  have flag : claimant? after chosen = some true := by
    refine elected.claimant rfl fun has => ?_
    rw [exact chosen (elected.mem rfl), has]
  have isLead := flagged_withLead members (some chosen)
  refine ⟨fun x member free => ?_, fun x member lead => ?_⟩
  · have listed : x.case ∈ members.map Member.case := by
      rw [← cases_withLead members (some chosen)]
      exact List.mem_map_of_mem member
    rw [isLead x member]
    by_cases here : chosen = x.case
    · rw [← here, flag]
      simp
    · have other : some chosen ≠ some x.case := fun same => here (Option.some.inj same)
      have lacks : claims x.case = false := by
        refine Bool.eq_false_iff.mpr fun has => ?_
        by_cases asked : first = some x.case
        · exact other (elected.eq_of_claims flagged asked listed has)
        · exact free (stale _ listed has asked)
      rw [claimant?, elected.others x.case other, ← claimant?, exact _ listed, lacks,
        decide_eq_false other]
  · rw [isLead x member] at lead
    have here : chosen = x.case := Option.some.inj (of_decide_eq_true lead)
    exact .inl (here ▸ flag)

namespace Reconciliation

variable {r : Reconciliation} {fault : CaseReference → Option Failure} {writes : List CaseWrite}
  {failed : List CaseReference} {members : List Member} {failures : List Failure}
  {before between middle after : Register CaseReference SingleCase}

/-- One side of a round is left in agreement on its lead. Between its writes and its election, its
members may not have been touched.
-/
theorem WellPosed.leadsAgree (posed : r.WellPosed) (carried : r.Carried writes)
    (valid : r.multiple.validateIncoming = .ok ()) (flagged : r.Flagged before)
    (delivered : Delivered fault writes before between)
    (untouched
      : ∀ case ∈ (r.members (Propagation.ofFaults fault writes).written).map Member.case,
          middle.get? case = between.get? case)
    (settled
      : r.Settled (Propagation.ofFaults fault writes).written middle after members failures)
    (faults : ∀ case, (fault case).isSome → case ∈ failed)
    (named : ∀ failure ∈ failures, failure.case ∈ failed)
    : LeadsAgree members failed after := by
  obtain ⟨lead, elected, rfl⟩ := settled
  cases lead with
  | none =>
      refine .of_all_failed fun x member => ?_
      have listed := List.mem_map_of_mem (f := Member.case) member
      rw [cases_withLead] at listed
      obtain ⟨failure, asked, same⟩ := List.mem_map.mp (elected.named rfl listed)
      exact same ▸ named failure asked
  | some chosen =>
      refine elected.leadsAgree (posed.flagged_members _) (fun case member => ?_)
        fun case member has other => ?_
      · rw [claimant?, untouched case member]
        exact posed.claims_exact carried valid flagged delivered member
      · exact faults case (posed.failed_of_claims carried valid member has other)

end Reconciliation

-----------------------------------------------------------------------------------------
-- Rounds
-----------------------------------------------------------------------------------------

variable {request : RoundRequest} {s t : Stores} {outcome : RoundOutcome}

/-- A reconciliation that is done leaves its record and the cases in agreement on the lead. -/
theorem Reconciliation.Done.leadsAgree {r : Reconciliation} (done : r.Done s outcome t)
    (prepared : r.Prepared request s) (flagged : r.Flagged s.cases.records)
    : LeadsAgree outcome.multiple.members (outcome.failures.map Failure.case)
        t.cases.records := by
  obtain ⟨delivered, settled, committed, _, failures⟩ := done
  have posed := prepared.posed
  rw [committed.record, failures]
  refine posed.leadsAgree posed.carried_writes prepared.valid flagged delivered
    (fun _ _ => rfl) settled (fun case failed => ?_) fun failure member => ?_
  · have named := (Propagation.mem_failures_ofFaults delivered).mpr failed
    simp only [List.map_append, List.mem_append]
    exact .inl (.inr named)
  · simp only [List.map_append, List.mem_append]
    exact .inr (List.mem_map_of_mem member)

/-- The settled members of both sides of a move are different cases, as no case belongs to two
multiples.
-/
theorem Movement.Prepared.disjoint_members {m : Movement} {fault : CaseReference → Option Failure}
    {between : Register CaseReference SingleCase} (prepared : m.Prepared request s)
    (carries : request.Carries s) (agree : s.MembersAgree)
    (delivered : Delivered fault m.writes s.cases.records between)
    : ((m.target.members (Propagation.ofFaults fault m.writes).written).map Member.case).Disjoint
        ((m.source.members (Propagation.ofFaults fault m.writes).written).map Member.case) := by
  have apart := prepared.apart_of_agree carries agree
  intro case inTarget inSource
  have target := (prepared.target.members_agree (prepared.carried_target apart)
    (prepared.listed_target agree) delivered case).mp inTarget
  have source := (prepared.source.members_agree (prepared.carried_source apart)
    (prepared.listed_source carries agree) delivered case).mp inSource
  exact prepared.apart (Option.some.inj (target.symm.trans source))

/-- A move that is done leaves both records and the cases in agreement on the leads: the election
on one side does not touch the members of the other.
-/
theorem Movement.Done.leadsAgree {m : Movement} (done : m.Done s outcome t)
    (prepared : m.Prepared request s) (carries : request.Carries s) (consistent : s.Consistent)
    {record : Multiple} (committed : record ∈ outcome.records)
    : LeadsAgree record.members (outcome.failures.map Failure.case) t.cases.records := by
  have apart := prepared.apart_of_agree carries consistent.members
  obtain ⟨delivered, targetSettled, sourceSettled, stored, moved, failures⟩ := done
  have disjoint := prepared.disjoint_members carries consistent.members delivered
  rename_i fault between middle targetMembers targetSettling sourceMembers sourceSettling movedTo
  have faults : ∀ case, (fault case).isSome → case ∈ outcome.failures.map Failure.case := by
    intro case failed
    have named := (Propagation.mem_failures_ofFaults delivered).mpr failed
    rw [failures]
    simp only [List.map_append, List.mem_append]
    exact .inl (.inl (.inr named))
  rcases List.mem_cons.mp committed with rfl | other
  · have flagged : m.source.Flagged s.cases.records := by
      intro x member
      rw [prepared.carried] at member
      exact carries.leads consistent member
    rw [stored.sourceRecord]
    refine prepared.source.leadsAgree (prepared.carried_source apart) prepared.sourceValid flagged
      delivered (fun case member => ?_) sourceSettled faults fun failure member => ?_
    · exact targetSettled.others fun inTarget => disjoint inTarget member
    · rw [failures, List.map_append]
      exact List.mem_append_right _ (List.mem_map_of_mem member)
  · rw [moved, Option.toList_some, List.mem_singleton] at other
    subst other
    have flagged : m.target.Flagged s.cases.records :=
      consistent.leads m.target.reference _ prepared.stored
    have agree : LeadsAgree targetMembers (outcome.failures.map Failure.case) middle := by
      refine prepared.target.leadsAgree (prepared.carried_target apart) prepared.targetValid flagged
        delivered (fun _ _ => rfl) targetSettled faults fun failure member => ?_
      rw [failures, List.map_append, List.map_append]
      exact List.mem_append_left _ (List.mem_append_right _ (List.mem_map_of_mem member))
    rw [stored.targetRecord]
    refine agree.congr fun x member => sourceSettled.others fun inSource => ?_
    have inTarget : x.case ∈ _ := List.mem_map_of_mem member
    rw [targetSettled.cases] at inTarget
    exact disjoint inTarget inSource

/-- A round through the pool that returns leaves records and cases in agreement on leads, except
for cases that its outcome names: the members of a committed record have the flags of their cases,
and the case of its lead has the flag, unless all members are named.
-/
theorem Coordinator.carryOut_leadsAgree (k : Coordinator) (inMemory : s.InMemory)
    (consistent : s.Consistent) (carries : request.Carries s)
    (mode : request.mode = .synchronousFanOut)
    (returns : (k.carryOut request).Returns s outcome t)
    : ∀ record ∈ outcome.records,
        (∀ x ∈ record.members,
          x.case ∉ outcome.failures.map Failure.case
          → claimant? t.cases.records x.case = some x.lead)
        ∧ (∀ lead,
            record.leadCase? = some lead
            → claimant? t.cases.records lead = some true
              ∨ ∀ x ∈ record.members, x.case ∈ outcome.failures.map Failure.case) := by
  intro record committed
  obtain ⟨work, prepared, done⟩ :=
    carryOut_done inMemory consistent.members carries mode returns
  have agree : LeadsAgree record.members (outcome.failures.map Failure.case)
      t.cases.records := by
    cases work with
    | reconcile r =>
        have flagged : r.Flagged s.cases.records := by
          intro x member
          rw [prepared.carried] at member
          exact carries.leads consistent member
        have leads := Reconciliation.Done.leadsAgree done prepared flagged
        obtain ⟨_, _, _, movedTo, _⟩ := done
        simp only [RoundOutcome.records, movedTo, Option.toList_none, List.mem_singleton]
          at committed
        rw [committed]
        exact leads
    | move m => exact done.leadsAgree prepared carries consistent committed
  refine ⟨agree.flags, fun lead chosen => ?_⟩
  obtain ⟨x, member, flag, rfl⟩ := Multiple.exists_of_leadCase? chosen
  exact agree.lead x member flag

/-- After a round of which the write to the chosen lead fails, the other member is lead and has its
flag.
-/
theorem Sample.leadsAgree_of_failure
    : ∃ outcome t,
        (coordinator.carryOut (joining .synchronousFanOut)).Returns (stores [one]) outcome t
        ∧ outcome.failures.map Failure.case = [one]
        ∧ outcome.multiple.leadCase? = some two
        ∧ claimant? t.cases.records two = some true := by
  refine ⟨_, _, rfl, by decide +kernel, by decide +kernel, ?_⟩
  have agree := coordinator.carryOut_leadsAgree (reachable_stores [one]).inMemory
    (consistent_stores [one]) (carries_joining .synchronousFanOut [one]) rfl rfl
  refine ((agree _ List.mem_cons_self).2 two (by decide +kernel)).resolve_right fun all => ?_
  exact absurd (all { case := two, lead := true } (by decide +kernel)) (by decide +kernel)

end CaseGrouping
