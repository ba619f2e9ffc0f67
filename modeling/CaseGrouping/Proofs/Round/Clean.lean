import CaseGrouping.Proofs.Durable.Replay
import CaseGrouping.Proofs.Round.Synchronous

/-! Rounds through the pool that return without a failure. Nothing is left to settle in them: all
writes of the plan were applied, and everybody is where the plan has put them.
-/

namespace CaseGrouping

-----------------------------------------------------------------------------------------
-- Deliveries without a fault
-----------------------------------------------------------------------------------------

section Delivered

variable {fault : CaseReference → Option Failure} {writes : List CaseWrite}
  {before after : Register CaseReference SingleCase}

/-- A delivery that names no failure has no fault. -/
theorem Delivered.free_of_clean (delivered : Delivered fault writes before after)
    (clean : (Propagation.ofFaults fault writes).failures = []) (r : CaseReference)
    : fault r = none := by
  refine Option.not_isSome_iff_eq_none.mp fun failed => ?_
  have named := (Propagation.mem_failures_ofFaults delivered).mpr failed
  rw [clean] at named
  cases named

/-- Then all cases that were written to are stored, and all writes were applied. -/
theorem Delivered.afterWrites_of_free (delivered : Delivered fault writes before after)
    (free : ∀ r, fault r = none) (distinct : (writes.map CaseWrite.case).Nodup)
    : (∀ r ∈ writes.map CaseWrite.case, (before.get? r).isSome)
      ∧ after = afterWrites before writes := by
  have stored : ∀ r ∈ writes.map CaseWrite.case, (before.get? r).isSome := by
    intro r sent
    obtain ⟨w, member, rfl⟩ := List.mem_map.mp sent
    obtain ⟨c, found, _⟩ := delivered.applied member (free w.case)
    rw [found]
    rfl
  refine ⟨stored, delivered.eq_afterWrites (fun r sent => ?_) distinct⟩
  rw [free r, absence?, if_pos (stored r sent)]

end Delivered

-----------------------------------------------------------------------------------------
-- Settling after all writes were done
-----------------------------------------------------------------------------------------

namespace Reconciliation

variable {r : Reconciliation} {written : List CaseReference} {members : List Member}
  {failures : List Failure} {before after : Register CaseReference SingleCase}

/-- The chosen lead has its flag by then and is asked first, so settling leaves members and cases as
they are.
-/
theorem Settled.of_done (settled : r.Settled written before after members failures)
    (posed : r.WellPosed) (valid : r.multiple.validateIncoming = .ok ())
    (done : ∀ w ∈ r.plan.write, w.case ∈ written)
    (leaves : ∀ case ∈ r.delta.toDetach, case ∈ written)
    : after = before ∧ members = r.members written := by
  obtain ⟨lead, elected, rfl⟩ := settled
  have joins : ∀ case ∈ r.delta.toAttach, case ∈ written :=
    fun case joins => done _ (attach_mem_plan joins)
  have cases := cases_members_of_done joins leaves
  cases chosen : r.lead with
  | none =>
      have nobody : r.members written = [] := by
        refine List.map_eq_nil_iff.mp (cases.trans (Decidable.byContradiction fun some => ?_))
        have leads := posed.leads.isSome some
        rw [chosen] at leads
        cases leads
      have nobody' : lead = none := by
        refine Option.eq_none_iff_forall_ne_some.mpr fun case found => ?_
        have member := elected.mem found
        rw [nobody] at member
        cases member
      refine ⟨Register.ext_get? fun case => elected.others case (by simp [nobody']), ?_⟩
      rw [nobody]
      rfl
  | some first =>
      have member : first ∈ (r.members written).map Member.case := cases ▸ posed.leads.mem chosen
      have has := posed.claims_of_done valid done chosen
      have flagged := posed.flagged_members written
      rw [chosen] at flagged
      have same := elected.eq_of_claims flagged rfl member has
      refine ⟨Register.ext_get? fun case => ?_, ?_⟩
      · by_cases here : first = case
        · subst here
          exact elected.known first same has
        · refine elected.others case fun other => here ?_
          exact Option.some.inj (same.symm.trans other)
      · rw [same]
        exact withLead_of_flagged flagged

end Reconciliation

-----------------------------------------------------------------------------------------
-- Rounds without a failure
-----------------------------------------------------------------------------------------

variable {request : RoundRequest} {s t : Stores} {outcome : RoundOutcome}

/-- A reconciliation without a failure has applied its plan, to cases that are stored, and committed
the members that the plan leads to. Nobody was refused.
-/
theorem Reconciliation.Done.clean {r : Reconciliation} (done : r.Done s outcome t)
    (prepared : r.Prepared request s) (clean : outcome.failures = [])
    : (∀ case ∈ r.plan.writes.map CaseWrite.case, (s.cases.records.get? case).isSome)
      ∧ t.cases.records = afterWrites s.cases.records r.plan.writes
      ∧ outcome.multiple.members = r.members (r.plan.writes.map CaseWrite.case)
      ∧ r.failures = [] := by
  obtain ⟨delivered, settled, committed, _, failed⟩ := done
  rw [clean] at failed
  obtain ⟨⟨refused, quiet⟩, _⟩ := (List.append_eq_nil_iff.mp failed.symm).imp_left
    List.append_eq_nil_iff.mp
  have free := delivered.free_of_clean quiet
  obtain ⟨stored, applied⟩ := delivered.afterWrites_of_free free prepared.posed.nodup_writes
  rw [Propagation.ofFaults_of_free fun case _ => free case] at settled
  obtain ⟨same, members⟩ := settled.of_done prepared.posed prepared.valid
    (fun w member => List.mem_map_of_mem (List.mem_append_right _ member))
    fun case leaves => List.mem_map.mpr ⟨_, List.mem_append_left _ (detach_mem_plan leaves), rfl⟩
  refine ⟨stored, same.trans applied, ?_, refused⟩
  rw [committed.record, ← members]
  rfl

/-- So it is with a move without a failure, and the matched cases are all members of the source. -/
theorem Movement.Done.clean {m : Movement} (done : m.Done s outcome t)
    (prepared : m.Prepared request s) (apart : m.Apart) (clean : outcome.failures = [])
    : ∃ movedTo,
        outcome.movedTo = some movedTo
        ∧ (∀ case ∈ m.writes.map CaseWrite.case, (s.cases.records.get? case).isSome)
        ∧ t.cases.records = afterWrites s.cases.records m.writes
        ∧ movedTo.members = m.target.members (m.writes.map CaseWrite.case)
        ∧ outcome.multiple.members = m.source.members (m.writes.map CaseWrite.case)
        ∧ m.strangers = [] := by
  obtain ⟨delivered, targetSettled, sourceSettled, committed, moved, failed⟩ := done
  rw [clean] at failed
  simp only [List.nil_eq, List.append_eq_nil_iff] at failed
  obtain ⟨⟨⟨strangers, quiet⟩, _⟩, _⟩ := failed
  have free := delivered.free_of_clean quiet
  obtain ⟨stored, applied⟩ := delivered.afterWrites_of_free free (prepared.nodup_writes apart)
  rw [Propagation.ofFaults_of_free fun case _ => free case] at targetSettled sourceSettled
  obtain ⟨same, targetMembers⟩ := targetSettled.of_done prepared.target prepared.targetValid
    (fun w member => List.mem_map_of_mem (List.mem_append_left _ member))
    fun case leaves => by
      rw [prepared.toDetach_target] at leaves
      cases leaves
  obtain ⟨same', sourceMembers⟩ := sourceSettled.of_done prepared.source prepared.sourceValid
    (fun w member => List.mem_map_of_mem (List.mem_append_right _ member))
    (prepared.carried_source apart).leaving
  refine ⟨_, moved, stored, same'.trans (same.trans applied), ?_, ?_, strangers⟩
  · rw [committed.targetRecord, ← targetMembers]
    rfl
  · rw [committed.sourceRecord, ← sourceMembers]
    rfl

end CaseGrouping
