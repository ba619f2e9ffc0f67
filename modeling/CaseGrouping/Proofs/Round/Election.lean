import CaseGrouping.Proofs.FanOut.Single
import CaseGrouping.Proofs.Round.LeadRepair

/-! The repair of a lead, case by case. Every member is asked once at most, in order, until one has
the flag or takes it; whether a member takes it is settled by what the store holds for it when the
repair begins, since asking one member is nothing to the others.
-/

namespace CaseGrouping

-----------------------------------------------------------------------------------------
-- Asking one member
-----------------------------------------------------------------------------------------

namespace Coordinator

section Asking

variable {k : Coordinator} {s t : Stores} {r : CaseReference}

/-- The write by which a case is asked to take the lead flag. -/
def flagging (r : CaseReference) : CaseWrite :=
  ⟨r, .setLead true⟩

/-- What asking a case to take the lead flag ends with, in all attempts that the pool allows, unless
the case takes it.
-/
def refusal? (k : Coordinator) (s : CaseStore) (r : CaseReference) : Option Failure :=
  match (s.persist (k.fanOut.retry.maxAttempts - 1) (flagging r)).1 with
  | .ok _ => none
  | .error failure => some failure

/-- It depends on what the store holds for the case. -/
theorem refusal?_congr {s s' : CaseStore} (agree : s.AgreeOn r s')
    : k.refusal? s r = k.refusal? s' r := by
  have same := CaseStore.AgreeOn.persist (w := flagging r) agree (k.fanOut.retry.maxAttempts - 1)
  rw [refusal?, refusal?, same.result]

/-- A refusal names the case that was asked. -/
theorem case_of_refusal? {s : CaseStore} {failure : Failure}
    (refuses : k.refusal? s r = some failure)
    : failure.case = r := by
  have effect := s.persist_effect (k.fanOut.retry.maxAttempts - 1) (flagging r)
  unfold refusal? at refuses
  split at refuses
  next => cases refuses
  next outcome =>
    cases refuses
    rw [outcome] at effect
    exact effect.1

/-- (k.Answers r s answer t) says what comes of asking a case to take the lead flag: it takes it, or
is named and left as it was, and no other case has anything to do with it.
-/
structure Answers (k : Coordinator) (r : CaseReference) (s : Stores) (answer : Propagation)
    (t : Stores)
    : Prop where
  written : r ∈ answer.written ↔ k.refusal? s.cases r = none
  failures : answer.failures = (k.refusal? s.cases r).toList
  record
    : t.cases.records.get? r
      = if k.refusal? s.cases r = none then
          (s.cases.records.get? r).map (ChangeSet.setLead true).apply
        else s.cases.records.get? r
  others : ∀ q ≠ r, CaseStore.AgreeOn q t.cases s.cases
  calls
    : ∃ n,
        0 < n
        ∧ n ≤ k.fanOut.retry.maxAttempts
        ∧ t.calls = s.calls ++ List.replicate n (.submit k.fanOut.caseType (flagging r))

theorem ask_eq (k : Coordinator) (r : CaseReference) (s : Stores)
    : k.ask r s
      = ({ written := (k.fanOut.execute [flagging r] s).1.appliedReferences
           failures := (k.fanOut.execute [flagging r] s).1.failures },
          (k.fanOut.execute [flagging r] s).2) := by
  have first : ∀ next : FanOutReport → StateM Stores Propagation,
      (k.fanOut.execute [] >>= next) s = next {} s := by
    intro next
    change next (k.fanOut.execute [] s).1 (k.fanOut.execute [] s).2 = _
    rw [FanOut.execute_nil]
  exact first _

theorem ask_answers (k : Coordinator) (r : CaseReference) (keyed : s.cases.Keyed)
    : k.Answers r s (k.ask r s).1 (k.ask r s).2 := by
  obtain ⟨report, agree, others⟩ := k.fanOut.execute_alone (flagging r) s
  have effect := s.cases.persist_effect (k.fanOut.retry.maxAttempts - 1) (flagging r)
  have wrote := k.fanOut.execute_wrote [flagging r] s
  have calls := k.fanOut.execute_alone_calls (flagging r) s
  rw [ask_eq]
  generalize k.fanOut.execute [flagging r] s = done at *
  cases outcome : (s.cases.persist (k.fanOut.retry.maxAttempts - 1) (flagging r)).1 with
  | ok c =>
      have takes : k.refusal? s.cases r = none := by rw [refusal?, outcome]
      rw [outcome] at report effect
      have now := agree.record.trans effect.2
      have same : c.reference = r := wrote.keyed keyed r c now
      refine ⟨?_, ?_, ?_, others, calls⟩
      · simp [report, takes, FanOutReport.ofOutcomes, FanOutReport.appliedReferences,
          Except.toOption, same]
      · simp [report, takes, FanOutReport.ofOutcomes]
      · rw [if_pos takes]
        exact now.trans effect.1.symm
  | error failure =>
      have refuses : k.refusal? s.cases r = some failure := by rw [refusal?, outcome]
      rw [outcome] at report effect
      refine ⟨?_, ?_, ?_, others, calls⟩
      · simp [report, refuses, FanOutReport.ofOutcomes, FanOutReport.appliedReferences,
          Except.toOption]
      · simp [report, refuses, FanOutReport.ofOutcomes]
      · rw [if_neg (by simp [refuses])]
        exact agree.record.trans effect.2

end Asking

-----------------------------------------------------------------------------------------
-- Asking one member after another
-----------------------------------------------------------------------------------------

/-- A case has the lead flag already, or takes it. -/
def willing (k : Coordinator) (claims : CaseReference → Bool) (s : CaseStore) (r : CaseReference)
    : Bool :=
  claims r || (k.refusal? s r).isNone

/-- The candidates before the first willing one. -/
def passedOver (k : Coordinator) (claims : CaseReference → Bool) (s : CaseStore)
    (candidates : List CaseReference) : List CaseReference :=
  candidates.takeWhile fun r => !k.willing claims s r

/-- (k.Tried asked s t) says that between the stores s and t each of the cases was asked once, in
order, with one attempt at least and no more than the pool allows, and that nothing else was called.
-/
def Tried (k : Coordinator) (asked : List CaseReference) (s t : Stores) : Prop :=
  ∃ tries : List (CaseReference × Nat),
    tries.map Prod.fst = asked
    ∧ (∀ a ∈ tries, 0 < a.2 ∧ a.2 ≤ k.fanOut.retry.maxAttempts)
    ∧ t.calls
      = s.calls ++ tries.flatMap fun a =>
          List.replicate a.2 (.submit k.fanOut.caseType (flagging a.1))

/-- (k.Election claims candidates held s t lead failures) says what becomes of asking candidates one
after another, of whom the store holds the same as the store held: the first willing one is elected,
those before it are named with their refusals, and the elected one is changed at most.
-/
structure Election (k : Coordinator) (claims : CaseReference → Bool)
    (candidates : List CaseReference) (held : CaseStore) (s t : Stores)
    (lead : Option CaseReference) (failures : List Failure)
    : Prop where
  elected : lead = candidates.find? (k.willing claims held)
  failures
    : failures
      = (k.passedOver claims held candidates).filterMap (k.refusal? held)
  records
    : ∀ r,
        t.cases.records.get? r
        = if lead = some r ∧ claims r = false then
            (s.cases.records.get? r).map (ChangeSet.setLead true).apply
          else s.cases.records.get? r
  tried
    : k.Tried
        (k.passedOver claims held candidates ++ (lead.filter fun r => !claims r).toList) s t

section Election

variable {k : Coordinator} {claims : CaseReference → Bool} {held : CaseStore}
  {s asked t : Stores} {answer : Propagation} {r : CaseReference} {rest : List CaseReference}

theorem passedOver_of_willing (agrees : k.willing claims held r = true)
    : k.passedOver claims held (r :: rest) = [] :=
  List.takeWhile_cons_of_neg (by simp [agrees])

theorem passedOver_of_unwilling (refuses : k.willing claims held r = false)
    : k.passedOver claims held (r :: rest) = r :: k.passedOver claims held rest :=
  List.takeWhile_cons_of_pos (by simp [refuses])

theorem Election.nobody : k.Election claims [] held s s none [] where
  elected := rfl
  failures := rfl
  records := fun _ => rfl
  tried := ⟨[], rfl, by simp, (List.append_nil _).symm⟩

theorem Election.claiming (has : claims r = true)
    : k.Election claims (r :: rest) held s s (some r) [] := by
  have agrees : k.willing claims held r = true := by simp [willing, has]
  constructor
  case elected => rw [List.find?_cons_of_pos agrees]
  case failures => rw [passedOver_of_willing agrees]; rfl
  case records =>
    intro q
    rw [if_neg]
    rintro ⟨same, lacks⟩
    cases same
    rw [has] at lacks
    cases lacks
  case tried =>
    refine ⟨[], ?_, by simp, (List.append_nil _).symm⟩
    simp [passedOver_of_willing agrees, has, Option.filter_some]

theorem Election.taking (answers : k.Answers r s answer t) (lacks : claims r = false)
    (takes : k.refusal? held r = none) (same : s.cases.AgreeOn r held)
    : k.Election claims (r :: rest) held s t (some r) [] := by
  have agrees : k.willing claims held r = true := by simp [willing, takes]
  have takes' : k.refusal? s.cases r = none := (refusal?_congr same).trans takes
  constructor
  case elected => rw [List.find?_cons_of_pos agrees]
  case failures => rw [passedOver_of_willing agrees]; rfl
  case records =>
    intro q
    by_cases here : q = r
    · rw [here, if_pos ⟨rfl, lacks⟩, answers.record, if_pos takes']
    · rw [if_neg fun both => here (Option.some.inj both.1).symm]
      exact (answers.others q here).record
  case tried =>
    obtain ⟨n, positive, within, calls⟩ := answers.calls
    refine ⟨[(r, n)], ?_, by simp [positive, within], by simpa using calls⟩
    simp [passedOver_of_willing agrees, lacks, Option.filter_some]

theorem Election.refusing {lead : Option CaseReference} {failures : List Failure}
    (answers : k.Answers r s answer asked)
    (election : k.Election claims rest held asked t lead failures)
    (lacks : claims r = false) (refuses : (k.refusal? held r).isSome)
    (same : s.cases.AgreeOn r held)
    : k.Election claims (r :: rest) held s t lead (answer.failures ++ failures) := by
  have unwilling : k.willing claims held r = false := by simpa [willing, lacks] using refuses
  have refuses' : k.refusal? s.cases r ≠ none := by
    rw [refusal?_congr same]
    exact Option.isSome_iff_ne_none.mp refuses
  have unchanged : ∀ q, asked.cases.records.get? q = s.cases.records.get? q := by
    intro q
    by_cases here : q = r
    · rw [here, answers.record, if_neg refuses']
    · exact (answers.others q here).record
  have passed : k.passedOver claims held (r :: rest) = r :: k.passedOver claims held rest :=
    passedOver_of_unwilling unwilling
  constructor
  case elected => rw [List.find?_cons_of_neg (by simp [unwilling]), election.elected]
  case failures =>
    rw [passed, answers.failures, election.failures, refusal?_congr same]
    obtain ⟨failure, refuses⟩ := Option.isSome_iff_exists.mp refuses
    rw [List.filterMap_cons_some refuses, refuses]
    rfl
  case records =>
    intro q
    rw [election.records, unchanged]
  case tried =>
    obtain ⟨n, positive, within, calls⟩ := answers.calls
    obtain ⟨tries, names, bounds, later⟩ := election.tried
    refine ⟨(r, n) :: tries, ?_, ?_, ?_⟩
    · rw [passed, List.map_cons, names, List.cons_append]
    · exact List.forall_mem_cons.mpr ⟨⟨positive, within⟩, bounds⟩
    · rw [later, calls, List.flatMap_cons, List.append_assoc]

/-- Candidates of whom the store holds the same as at the start of the repair are asked as
described, by induction on them.
-/
theorem electWriting_election (k : Coordinator) (claims : CaseReference → Bool)
    {candidates : List CaseReference} (distinct : candidates.Nodup) (keyed : s.cases.Keyed)
    (same : ∀ r ∈ candidates, s.cases.AgreeOn r held)
    : k.Election claims candidates held s (k.electWriting claims candidates s).2
        (k.electWriting claims candidates s).1.1 (k.electWriting claims candidates s).1.2 := by
  induction candidates generalizing s with
  | nil => exact .nobody
  | cons r rest ih =>
      obtain ⟨new, distinct⟩ := List.nodup_cons.mp distinct
      obtain ⟨here, same⟩ := List.forall_mem_cons.mp same
      have answers := k.ask_answers r keyed
      have wrote : s.Wrote (k.ask r s).2 := k.fanOutPlan_wrote _ s
      rw [electWriting_cons]
      split
      next has => exact .claiming has
      next lacks =>
        have lacks : claims r = false := by simpa using lacks
        have written := answers.written
        rw [refusal?_congr here] at written
        split
        next takes => exact .taking answers lacks (written.mp takes) here
        next refuses =>
          have refuses := Option.isSome_iff_ne_none.mpr (refuses ∘ written.mpr)
          -- Those left are other cases, of which the store holds what it held before.
          refine .refusing answers (ih distinct (wrote.keyed keyed) fun q later => ?_) lacks
            refuses here
          have other : q ≠ r := fun equal => new (equal ▸ later)
          exact (answers.others q other).trans (same q later)

end Election

-----------------------------------------------------------------------------------------
-- The repair
-----------------------------------------------------------------------------------------

section Repair

variable {claims : CaseReference → Bool} {held : CaseStore} {members : List Member}
  {candidates : List CaseReference}

/-- Candidates are asked as they come, up to the first willing one. -/
theorem asked_sublist (k : Coordinator) (claims : CaseReference → Bool) (held : CaseStore)
    (candidates : List CaseReference) (p : CaseReference → Bool)
    : (k.passedOver claims held candidates
        ++ ((candidates.find? (k.willing claims held)).filter p).toList).Sublist candidates := by
  have first : ∀ l : List CaseReference, (l.head?.filter p).toList.Sublist l := by
    intro l
    cases l with
    | nil => exact .refl _
    | cons r rest => cases kept : p r <;> simp [Option.filter_some, kept]
  have asked := (List.Sublist.refl (k.passedOver claims held candidates)).append
    (first (candidates.dropWhile fun r => !k.willing claims held r))
  rw [← List.find?_eq_head?_dropWhile_not, passedOver, List.takeWhile_append_dropWhile] at asked
  exact asked

/-- The refusals of those that are passed over name them in order. -/
theorem cases_refusals (k : Coordinator) (claims : CaseReference → Bool) (held : CaseStore)
    (candidates : List CaseReference)
    : ((k.passedOver claims held candidates).filterMap (k.refusal? held)).map Failure.case
      = k.passedOver claims held candidates := by
  have named : ∀ r ∈ k.passedOver claims held candidates,
      (k.refusal? held r).map Failure.case = some r := by
    intro r passed
    have unwilling := List.mem_takeWhile_imp passed
    simp only [willing, Bool.not_or, Bool.and_eq_true, Bool.not_eq_true',
      Option.isNone_eq_false_iff, Option.isSome_iff_exists] at unwilling
    obtain ⟨_, failure, refuses⟩ := unwilling
    rw [refuses, Option.map_some, case_of_refusal? refuses]
  rw [List.map_filterMap, List.filterMap_congr named]
  exact List.filterMap_some

/-- Members of whom one is elected have their cases and sub-groups as before. -/
theorem kept_withLead (members : List Member) (lead : Option CaseReference)
    : (withLead members lead).map (fun m => (m.case, m.subGroup))
      = members.map fun m => (m.case, m.subGroup) := by
  simp [withLead, Function.comp_def]

/-- Only the elected one is flagged. -/
theorem lead_withLead (distinct : (members.map Member.case).Nodup) {lead : CaseReference}
    (member : lead ∈ members.map Member.case)
    : ((withLead members (some lead)).filter (·.lead)).map Member.case = [lead] := by
  have flagged : ∀ m ∈ withLead members (some lead), m.lead = (m.case == lead) := by
    intro m member
    rw [flagged_withLead members (some lead) m member]
    exact Bool.eq_iff_iff.mpr (by simpa using eq_comm)
  calc ((withLead members (some lead)).filter (·.lead)).map Member.case
      = ((withLead members (some lead)).filter ((· == lead) ∘ Member.case)).map Member.case := by
        rw [List.filter_congr flagged]
        rfl
    _ = (members.map Member.case).filter (· == lead) := by
        rw [← List.filter_map, cases_withLead]
    _ = [lead] := by
        rw [List.filter_beq, List.count_eq_one_of_mem distinct member]
        rfl

/-- (k.Repairs claims members s repaired failures t) says what becomes of members whose lead is
repaired while the stores turn from s into t. They are asked in order until one has the flag or
takes it, and that one is lead; if there is none, the first is. All that were asked in vain are
named, and no other case than the lead is changed.
-/
structure Repairs (k : Coordinator) (claims : CaseReference → Bool) (members : List Member)
    (s : Stores) (repaired : List Member) (failures : List Failure) (t : Stores)
    : Prop where
  kept : repaired.map (fun m => (m.case, m.subGroup)) = members.map fun m => (m.case, m.subGroup)
  order
    : ∃ first,
        (members.find? (·.lead)).or members.head? = some first
        ∧ leadCandidates members = first.case :: (members.map Member.case).erase first.case
  lead
    : ∃ lead,
        (repaired.filter (·.lead)).map Member.case = [lead]
        ∧ ((leadCandidates members).find? (k.willing claims s.cases)).or
            (members.map Member.case).head?
          = some lead
  named : failures.map Failure.case = k.passedOver claims s.cases (leadCandidates members)
  refusals : ∀ failure ∈ failures, k.refusal? s.cases failure.case = some failure
  everybody
    : (∀ m ∈ members, k.willing claims s.cases m.case = false)
      → ∀ m ∈ members, m.case ∈ failures.map Failure.case
  asked
    : ∃ asked,
        k.Tried asked s t
        ∧ asked.Nodup
        ∧ asked
          = k.passedOver claims s.cases (leadCandidates members)
            ++ (((leadCandidates members).find? (k.willing claims s.cases)).filter
              fun r => !claims r).toList
  records
    : ∀ r,
        t.cases.records.get? r
        = if (leadCandidates members).find? (k.willing claims s.cases) = some r
            ∧ claims r = false
          then (s.cases.records.get? r).map (ChangeSet.setLead true).apply
          else s.cases.records.get? r

/-- The candidates of members with different cases. -/
theorem leadCandidates_of_distinct (distinct : (members.map Member.case).Nodup)
    (occupied : members ≠ [])
    : ∃ first,
        (members.find? (·.lead)).or members.head? = some first
        ∧ leadCandidates members = first.case :: (members.map Member.case).erase first.case := by
  cases first : (members.find? (·.lead)).or members.head? with
  | none => exact absurd (List.head?_eq_none_iff.mp (Option.or_eq_none_iff.mp first).2) occupied
  | some m =>
      have others : (members.map Member.case).filter (· ∉ [m.case])
          = (members.map Member.case).erase m.case := by
        rw [distinct.erase_eq_filter]
        exact List.filter_congr fun r _ => Bool.eq_iff_iff.mpr (by simp)
      refine ⟨m, rfl, ?_⟩
      rw [leadCandidates_of_first first, others, eraseDups_of_nodup (distinct.erase _)]

/-- The repair of a lead ends as described. -/
theorem repairLead_repairs (k : Coordinator) (claims : CaseReference → Bool) (s : Stores)
    (occupied : members ≠ []) (distinct : (members.map Member.case).Nodup) (keyed : s.cases.Keyed)
    : k.Repairs claims members s (k.repairLead members claims s).1.1
        (k.repairLead members claims s).1.2 (k.repairLead members claims s).2 := by
  obtain ⟨first, flagged, order⟩ := leadCandidates_of_distinct distinct occupied
  have everyone : (leadCandidates members).Perm (members.map Member.case) := by
    rw [order]
    refine (List.perm_cons_erase (List.mem_map_of_mem ?_)).symm
    rcases Option.or_eq_some_iff.mp flagged with flagged | ⟨_, head⟩
    · exact List.mem_of_find?_eq_some flagged
    · exact List.mem_of_head? head
  have candidates := everyone.nodup_iff.mpr distinct
  have election := k.electWriting_election claims candidates keyed fun r _ => .refl r s.cases
  rw [repairLead_eq]
  generalize k.electWriting claims (leadCandidates members) s = elected at election ⊢
  constructor
  case kept => exact kept_withLead members _
  case order => exact ⟨first, flagged, order⟩
  case lead =>
    dsimp only
    rw [← election.elected]
    cases chosen : elected.1.1 with
    | some lead =>
        have candidate := List.mem_of_find?_eq_some (election.elected.symm.trans chosen)
        exact ⟨lead, lead_withLead distinct (everyone.mem_iff.mp candidate), rfl⟩
    | none =>
        obtain ⟨m, rest, rfl⟩ := List.exists_cons_of_ne_nil occupied
        exact ⟨m.case, lead_withLead distinct List.mem_cons_self, rfl⟩
  case named =>
    rw [election.failures]
    exact k.cases_refusals claims s.cases _
  case refusals =>
    intro failure member
    rw [election.failures] at member
    obtain ⟨r, _, refuses⟩ := List.mem_filterMap.mp member
    rw [case_of_refusal? refuses, refuses]
  case everybody =>
    intro unwilling m member
    have all : k.passedOver claims s.cases (leadCandidates members) = leadCandidates members := by
      refine List.takeWhile_eq_self_iff.mpr fun r candidate => ?_
      obtain ⟨x, listed, rfl⟩ := List.mem_map.mp (everyone.mem_iff.mp candidate)
      rw [unwilling x listed]
      rfl
    rw [election.failures, k.cases_refusals, all]
    exact everyone.mem_iff.mpr (List.mem_map_of_mem member)
  case asked =>
    have asked := k.asked_sublist claims s.cases (leadCandidates members) fun r => !claims r
    rw [← election.elected] at asked ⊢
    exact ⟨_, election.tried, candidates.sublist asked, rfl⟩
  case records =>
    rw [← election.elected]
    exact election.records

end Repair

end Coordinator

namespace Sample

/-- The second case is flagged. -/
def flagged : List Member :=
  [{ case := one, subGroup := some "Group" }, { case := two, lead := true }]

/-- It cannot be written, and the first case takes the flag at its second attempt. -/
theorem first_takes_over
    : (flagged ≠ [] ∧ (flagged.map Member.case).Nodup ∧ faltering.cases.Keyed)
      ∧ (let result := coordinator.repairLead flagged (fun _ => false) faltering
        coordinator.Repairs (fun _ => false) flagged faltering result.1.1 result.1.2 result.2
        ∧ result.1
          = ([{ case := one, lead := true, subGroup := some "Group" }, { case := two }],
              [⟨two, Pool.crashReason⟩])
        ∧ result.2.calls
          = [two, one, one].map fun r => .submit "case" (Coordinator.flagging r)) := by
  have occupied : flagged ≠ [] := List.cons_ne_nil _ _
  have distinct : (flagged.map Member.case).Nodup := by decide
  have keyed : faltering.cases.Keyed := (reachable_stores [two]).inMemory.keyed
  have repairs := coordinator.repairLead_repairs (fun _ => false) faltering occupied distinct keyed
  exact ⟨⟨occupied, distinct, keyed⟩, repairs, by decide +kernel, rfl⟩

end Sample

end CaseGrouping
