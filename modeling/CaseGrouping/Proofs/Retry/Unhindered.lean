import CaseGrouping.Proofs.Durable.Convergence

/-! Reconciliations through the pool that no fault hinders. What comes of them depends on which
cases are stored and on nothing else, and cases that have gone through one are left alone by
another one.
-/

namespace CaseGrouping

-----------------------------------------------------------------------------------------
-- Settlements
-----------------------------------------------------------------------------------------

/-- What the members of a reconciliation are settled to, with all of its failures and the writes of
the election.
-/
structure Settlement where
  members : List Member
  failures : List Failure
  writes : List CaseWrite

namespace Reconciliation

variable {r : Reconciliation} {before after : Register CaseReference SingleCase}

/-- The settlement when cases fail only if they are not stored: the first candidate is elected that
has the flag or is stored, and takes it in the latter case.
-/
def settlement (r : Reconciliation) (cases : Register CaseReference SingleCase) : Settlement :=
  let done := Propagation.ofFaults (absence? cases) r.plan.writes
  let members := r.members done.written
  let elects (case : CaseReference) := r.claims done.written case || (cases.get? case).isSome
  let lead := (leadCandidates members).find? elects
  { members := withLead members (lead <|> (members.map Member.case).head?)
    failures :=
      r.failures ++ done.failures
        ++ ((leadCandidates members).takeWhile fun case => !elects case).map absence
    writes :=
      (lead.toList.filter fun case => !r.claims done.written case).map (⟨·, .setLead true⟩) }

/-- All writes of a reconciliation that is not hindered. -/
def writes (r : Reconciliation) (cases : Register CaseReference SingleCase) : List CaseWrite :=
  r.plan.writes ++ (r.settlement cases).writes

theorem settlement_congr (stored : ∀ case, (after.get? case).isSome = (before.get? case).isSome)
    : r.settlement after = r.settlement before := by
  have faults : absence? after = absence? before := by
    funext case
    rw [absence?, absence?, stored]
  simp only [settlement, faults, stored]

/-- The election writes one flag at most. -/
theorem writes_settlement (r : Reconciliation) (cases : Register CaseReference SingleCase)
    : (r.settlement cases).writes = []
      ∨ ∃ case, (r.settlement cases).writes = [⟨case, .setLead true⟩] := by
  unfold settlement
  dsimp only
  cases (leadCandidates _).find? _ with
  | none => exact .inl rfl
  | some case =>
      rw [Option.toList_some, List.filter_singleton]
      cases !r.claims _ case with
      | true => exact .inr ⟨case, rfl⟩
      | false => exact .inl rfl

/-- So no case changes its multiple by it. -/
theorem keep_of_settlement (r : Reconciliation) (cases : Register CaseReference SingleCase)
    : ∀ w ∈ (r.settlement cases).writes, w.change.membership = .keep := by
  intro w member
  rcases r.writes_settlement cases with none | ⟨case, single⟩
  · rw [none] at member
    cases member
  · rw [single] at member
    rw [List.mem_singleton.mp member]
    rfl

end Reconciliation

-----------------------------------------------------------------------------------------
-- Writing again
-----------------------------------------------------------------------------------------

section Again

variable {cases : Register CaseReference SingleCase} {writes : List CaseWrite}

theorem stored_afterWrites (cases : Register CaseReference SingleCase) (writes : List CaseWrite)
    (r : CaseReference)
    : ((afterWrites cases writes).get? r).isSome = (cases.get? r).isSome := by
  induction writes generalizing cases with
  | nil => rfl
  | cons w rest ih =>
      refine (ih (afterWrite cases w)).trans ?_
      rw [get?_afterWrite]
      split <;> simp

/-- A case that differs in its lead flag comes out of a change with another lead flag at most. -/
theorem ChangeSet.apply_flagged (c : ChangeSet) (case : SingleCase) (flag : Bool)
    : ∃ flag', c.apply { case with leadClaimant := flag }
        = { c.apply case with leadClaimant := flag' } := by
  unfold apply
  split
  · exact ⟨_, rfl⟩
  · exact ⟨_, rfl⟩
  · dsimp only
    split <;> exact ⟨_, rfl⟩

/-- A flag that was written after a change comes out the same when both are done again. -/
theorem ChangeSet.setLead_apply_again (c : ChangeSet) (case : SingleCase) (flag : Bool)
    : (setLead flag).apply (c.apply ((setLead flag).apply (c.apply case)))
      = (setLead flag).apply (c.apply case) := by
  obtain ⟨flag', changed⟩ := c.apply_flagged (c.apply case) flag
  simp only [apply_setLead, changed, apply_apply]

/-- Writes to different cases, and a lead flag after them, change nothing when they are done again.
-/
theorem afterWrites_again {flags : List CaseWrite} (distinct : (writes.map CaseWrite.case).Nodup)
    (single : flags = [] ∨ ∃ r, flags = [⟨r, .setLead true⟩])
    : afterWrites (afterWrites cases (writes ++ flags)) (writes ++ flags)
      = afterWrites cases (writes ++ flags) := by
  simp only [afterWrites_append]
  refine Register.ext_get? fun q => ?_
  -- What becomes of the case q is the change of its write, and the flag if it gets one.
  have changes : ∃ change : SingleCase → SingleCase,
      (∀ c, change (change c) = change c)
      ∧ (∀ flag c,
          (ChangeSet.setLead flag).apply (change ((ChangeSet.setLead flag).apply (change c)))
          = (ChangeSet.setLead flag).apply (change c))
      ∧ ∀ cases, (afterWrites cases writes).get? q = (cases.get? q).map change := by
    by_cases written : q ∈ writes.map CaseWrite.case
    · obtain ⟨w, member, rfl⟩ := List.mem_map.mp written
      exact ⟨w.change.apply, w.change.apply_apply,
        fun flag c => w.change.setLead_apply_again c flag,
        fun cases => get?_afterWrites distinct member⟩
    · refine ⟨id, fun _ => rfl, fun _ _ => rfl, fun cases => ?_⟩
      rw [get?_afterWrites_of_absent written, Option.map_id, id]
  obtain ⟨change, again, flagged, done⟩ := changes
  rcases single with rfl | ⟨r, rfl⟩
  · change (afterWrites (afterWrites cases writes) writes).get? q
      = (afterWrites cases writes).get? q
    rw [done, done, Option.map_map]
    exact congrArg (Option.map · _) (funext again)
  · have flag : ∀ cases, (afterWrites cases [⟨r, .setLead true⟩]).get? q
        = if q = r then (cases.get? q).map (ChangeSet.setLead true).apply else cases.get? q :=
      fun cases => get?_afterWrite cases ⟨r, .setLead true⟩ q
    by_cases here : q = r
    · simp only [flag, done, if_pos here, Option.map_map]
      exact congrArg (Option.map · _) (funext (flagged true))
    · simp only [flag, done, if_neg here, Option.map_map]
      exact congrArg (Option.map · _) (funext again)

end Again

-----------------------------------------------------------------------------------------
-- Rounds
-----------------------------------------------------------------------------------------

namespace Coordinator

variable {k : Coordinator} {s t : Stores} {r : Reconciliation}

/-- A plan for cases that no fault hinders goes through but for cases that are not stored. -/
theorem fanOutPlan_unhindered {plan : PropagationPlan}
    (distinct : (plan.writes.map CaseWrite.case).Nodup) (keyed : s.cases.Keyed)
    (unhindered : ∀ r, s.cases.Unhindered r)
    : (k.fanOutPlan plan s).1 = .ofFaults (absence? s.cases.records) plan.writes
      ∧ (k.fanOutPlan plan s).2.cases.records
        = afterWrites s.cases.records plan.writes := by
  obtain ⟨fault, report, delivered, told⟩ := k.fanOutPlan_delivered plan distinct keyed
  have told := fun r member => told r member (unhindered r)
  refine ⟨report.trans ?_, delivered.eq_afterWrites told distinct⟩
  unfold Propagation.ofFaults
  congr 1
  · exact List.filter_congr fun r member => by rw [told r member]
  · exact List.filterMap_congr told

/-- An election without hindrance goes on to the first candidate that has the flag or is stored, by
induction on the candidates.
-/
theorem electWriting_unhindered (claims : CaseReference → Bool) (candidates : List CaseReference)
    (keyed : s.cases.Keyed) (unhindered : ∀ r, s.cases.Unhindered r)
    : let elects := fun case => claims case || (s.cases.records.get? case).isSome
      let lead := candidates.find? elects
      (k.electWriting claims candidates s).1
          = (lead, (candidates.takeWhile fun case => !elects case).map absence)
        ∧ (k.electWriting claims candidates s).2.cases.records
          = afterWrites s.cases.records
              ((lead.toList.filter fun case => !claims case).map (⟨·, .setLead true⟩)) := by
  induction candidates generalizing s with
  | nil => exact ⟨rfl, rfl⟩
  | cons r rest ih =>
      dsimp only
      rw [electWriting_cons]
      have distinct : (PropagationPlan.writes
          { write := [⟨r, .setLead true⟩] }).map CaseWrite.case |>.Nodup :=
        List.nodup_singleton r
      obtain ⟨report, records⟩ :=
        fanOutPlan_unhindered (k := k) distinct keyed unhindered
      have wrote : s.Wrote (k.ask r s).2 := k.fanOutPlan_wrote _ s
      change (k.ask r s).1 = _ at report
      change (k.ask r s).2.cases.records = afterWrites _ [⟨r, .setLead true⟩] at records
      by_cases has : claims r = true
      · simp [has, afterWrites]
      · cases stored : s.cases.records.get? r with
        | some c =>
            have written : (k.ask r s).1.written = [r] := by
              rw [report]
              simp [Propagation.ofFaults, PropagationPlan.writes, absence?, stored]
            simp [has, stored, written, records]
        | none =>
            have answer : (k.ask r s).1.written = [] ∧ (k.ask r s).1.failures = [absence r] := by
              rw [report]
              simp [Propagation.ofFaults, PropagationPlan.writes, absence?, stored]
            have same : (k.ask r s).2.cases.records = s.cases.records := by
              rw [records]
              unfold afterWrites
              rw [List.foldl_cons, List.foldl_nil, afterWrite, stored]
            obtain ⟨elected, after⟩ :=
              ih (wrote.keyed keyed) fun q => wrote.unhindered q (unhindered q)
            rw [same] at elected after
            simp [has, stored, answer, elected, after]

/-- What is left of a reconciliation when it is not hindered: to commit what it settled. -/
def conclude (k : Coordinator) (r : Reconciliation) (settled : Settlement)
    : Round RoundOutcome := do
  let committed ← k.commit r settled.members
  return {
    multiple := committed
    failures := settled.failures
    mode := r.mode }

/-- A reconciliation that is not hindered does all its writes and commits its settlement. -/
theorem reconcile_unhindered (posed : r.WellPosed) (own : r.multiple.reference = some r.reference)
    (mode : r.mode = .synchronousFanOut) (keyed : s.cases.Keyed)
    (unhindered : ∀ case, s.cases.Unhindered case)
    : ∃ u,
        s.Wrote u
        ∧ u.cases.records = afterWrites s.cases.records (r.writes s.cases.records)
        ∧ (k.reconcile r).runOn s = (k.conclude r (r.settlement s.cases.records)).runOn u := by
  let done := Propagation.ofFaults (absence? s.cases.records) r.plan.writes
  let sent := k.fanOutPlan r.plan s
  let repaired := k.repairLead (r.members done.written) (r.claims done.written) sent.2
  obtain ⟨report, records⟩ := fanOutPlan_unhindered (k := k) posed.nodup_writes keyed unhindered
  have wrote : s.Wrote sent.2 := k.fanOutPlan_wrote r.plan s
  have wrote' : sent.2.Wrote repaired.2 := repairLead_wrote _ _ _
  obtain ⟨elected, after⟩ := electWriting_unhindered (k := k) (r.claims done.written)
    (leadCandidates (r.members done.written)) (wrote.keyed keyed)
    fun case => wrote.unhindered case (unhindered case)
  -- The writes before it do not matter to the election, as the same cases are stored.
  simp only [wrote.stored] at elected after
  have repairs : repaired = _ := repairLead_eq _ _ _
  refine ⟨repaired.2, wrote.trans wrote', ?_, ?_⟩
  · rw [Reconciliation.writes, afterWrites_append, ← records, repairs]
    exact after
  have propagates : (k.propagate r.reference r.expected r.plan r.mode).Returns s done sent.2 := by
    rw [mode]
    exact propagate_synchronous.mpr (Prod.ext report rfl)
  have settles : (k.settle r done.written).Returns sent.2
      ((r.settlement s.cases.records).members, repaired.1.2) repaired.2 := by
    rw [settle_eq_repairLead own mode]
    refine Round.returns_attempt.mpr (Prod.ext (Prod.ext ?_ rfl) rfl)
    change repaired.1.1 = _
    rw [repairs]
    dsimp only
    rw [elected]
    rfl
  have failures : r.failures ++ done.failures ++ repaired.1.2
      = (r.settlement s.cases.records).failures := by
    rw [repairs]
    dsimp only
    rw [elected]
    rfl
  rw [reconcile_of_settled own propagates settles, failures]
  rfl

end Coordinator

end CaseGrouping
