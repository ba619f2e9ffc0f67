import CaseGrouping.Proofs.Multiple
import CaseGrouping.Proofs.Round.Propagation
import CaseGrouping.Round.Reconciliation

/-! The repair of a lead: the candidates are asked in order, and the first that has its flag or
takes it is elected. All that were asked in vain are named as failures.
-/

namespace CaseGrouping

-----------------------------------------------------------------------------------------
-- Candidates
-----------------------------------------------------------------------------------------

/-- The order in which members are asked to be lead: the flagged one, or else the first, and
then the others.
-/
def leadCandidates (members : List Member) : List CaseReference :=
  let references := members.map Member.case
  match members.find? (·.lead) with
  | some m => (m.case :: references).eraseDups
  | none => references.eraseDups

section Candidates

variable {members : List Member} {lead : Option CaseReference} {r : CaseReference}

/-- The candidates are the members. -/
theorem mem_leadCandidates : r ∈ leadCandidates members ↔ r ∈ members.map Member.case := by
  unfold leadCandidates
  dsimp only
  split
  next x flagged =>
    have member := List.mem_of_find?_eq_some flagged
    rw [List.mem_eraseDups, List.mem_cons, or_iff_right_of_imp]
    rintro rfl
    exact List.mem_map_of_mem member
  next => rw [List.mem_eraseDups]

/-- The flagged member, or else the first one, is asked before the others. -/
theorem leadCandidates_of_first {m : Member}
    (first : (members.find? (·.lead)).or members.head? = some m)
    : leadCandidates members
      = m.case :: ((members.map Member.case).filter (· ∉ [m.case])).eraseDups := by
  have others : ((members.map Member.case).filter fun r => !r == m.case)
      = (members.map Member.case).filter (· ∉ [m.case]) :=
    List.filter_congr fun r _ => Bool.eq_iff_iff.mpr (by simp)
  unfold leadCandidates
  cases flagged : members.find? (·.lead) with
  | some x =>
      obtain rfl : x = m := by simpa [flagged] using first
      dsimp only
      rw [List.eraseDups_cons, others]
  | none =>
      rw [flagged, Option.none_or] at first
      obtain ⟨rest, rfl⟩ := List.head?_eq_some_iff.mp first
      dsimp only
      rw [← others, List.map_cons, List.eraseDups_cons, List.filter_cons_of_neg (by simp)]

/-- The lead by which the members are flagged is asked first. -/
theorem leadCandidates_of_flagged (flagged : Multiple.Flagged lead members) (chosen : lead = some r)
    (member : r ∈ members.map Member.case)
    : ∃ rest, leadCandidates members = r :: rest := by
  obtain ⟨x, listed, rfl⟩ := List.mem_map.mp member
  have some : (members.find? (·.lead)).isSome :=
    List.find?_isSome.mpr ⟨x, listed, by simp [flagged x listed, chosen]⟩
  obtain ⟨y, found⟩ := Option.isSome_iff_exists.mp some
  have flag := List.find?_some found
  rw [flagged y (List.mem_of_find?_eq_some found), chosen] at flag
  have same : x.case = y.case := Option.some.inj (of_decide_eq_true flag)
  rw [leadCandidates, found]
  dsimp only
  rw [List.eraseDups_cons, same]
  exact ⟨_, rfl⟩

@[simp]
theorem cases_withLead (members : List Member) (lead : Option CaseReference)
    : (withLead members lead).map Member.case = members.map Member.case := by
  simp [withLead, Function.comp_def]

theorem flagged_withLead (members : List Member) (lead : Option CaseReference)
    : Multiple.Flagged lead (withLead members lead) := by
  intro x member
  obtain ⟨y, _, rfl⟩ := List.mem_map.mp member
  rfl

/-- Members that are flagged by a lead already are left as they are. -/
theorem withLead_of_flagged (flagged : Multiple.Flagged lead members)
    : withLead members lead = members := by
  refine (List.map_congr_left fun x member => ?_).trans (List.map_id members)
  rw [← flagged x member]
  rfl

end Candidates

namespace LeadSearch

section Searches

variable {members : List Member} {references : List CaseReference}
  {l next : LeadSearch references} {failures : List Failure}

/-- Those whom a search may still ask. -/
def candidates (l : LeadSearch references) : List CaseReference :=
  l.candidate :: l.remaining.eraseDups

theorem candidates_of_next (moves : l.next? failures = some next)
    : next.candidates = l.remaining.eraseDups := by
  obtain ⟨head, left, _⟩ := of_next moves
  obtain ⟨others, remaining⟩ := List.head?_eq_some_iff.mp head
  rw [candidates, left, remaining, List.eraseDups_cons, List.filter_cons_of_neg (by simp)]
  rfl

theorem remaining_of_last (last : l.next? failures = none) : l.remaining = [] :=
  List.head?_eq_none_iff.mp (Option.map_eq_none_iff.mp last)

theorem candidates_of_start {l : LeadSearch (members.map Member.case)}
    (start : start? members = some l)
    : l.candidates = leadCandidates members ∧ l.failures = [] := by
  obtain ⟨m, first, rfl⟩ := Option.map_eq_some_iff.mp start
  exact ⟨(leadCandidates_of_first first).symm, rfl⟩

theorem members_of_not_start (nobody : start? members = none) : members = [] :=
  List.head?_eq_none_iff.mp (Option.or_eq_none_iff.mp (Option.map_eq_none_iff.mp nobody)).2

end Searches

end LeadSearch

-----------------------------------------------------------------------------------------
-- Election
-----------------------------------------------------------------------------------------

/-- (Elected claims candidates before after lead failures) says what has become of an election.
Those before the lead have no flag and could not take it, the lead has its flag now, and no other
case was changed.
-/
structure Elected (claims : CaseReference → Bool) (candidates : List CaseReference)
    (before after : Register CaseReference SingleCase) (lead : Option CaseReference)
    (failures : List Failure)
    : Prop where
  asked : ∃ rest, candidates = failures.map Failure.case ++ rest ∧ rest.head? = lead
  passed : ∀ r ∈ failures.map Failure.case, claims r = false
  known : ∀ r, lead = some r → claims r = true → after.get? r = before.get? r
  taken : ∀ r, lead = some r → claims r = false → claimant? after r = some true
  others : ∀ r, lead ≠ some r → after.get? r = before.get? r
  owner : ∀ r, owner? after r = owner? before r

namespace Elected

section Steps

variable {claims : CaseReference → Bool} {rest : List CaseReference}
  {before asked after : Register CaseReference SingleCase} {r : CaseReference}

theorem nobody : Elected claims [] before before none [] where
  asked := ⟨[], rfl, rfl⟩
  passed := fun _ member => nomatch member
  known := fun _ lead => nomatch lead
  taken := fun _ lead => nomatch lead
  others := fun _ _ => rfl
  owner := fun _ => rfl

theorem claiming (has : claims r = true)
    : Elected claims (r :: rest) before before (some r) [] where
  asked := ⟨r :: rest, rfl, rfl⟩
  passed := fun _ member => nomatch member
  known := fun _ _ _ => rfl
  taken := fun q lead lacks => by
    cases lead
    exact absurd has (by simp [lacks])
  others := fun _ _ => rfl
  owner := fun _ => rfl

theorem taking (lacks : claims r = false) (flag : claimant? after r = some true)
    (others : ∀ q ≠ r, after.get? q = before.get? q)
    (owner : ∀ q, owner? after q = owner? before q)
    : Elected claims (r :: rest) before after (some r) [] where
  asked := ⟨r :: rest, rfl, rfl⟩
  passed := fun _ member => nomatch member
  known := fun q lead has => by
    cases lead
    exact absurd has (by simp [lacks])
  taken := fun q lead _ => by
    cases lead
    exact flag
  others := fun q other => others q fun same => other (congrArg some same.symm)
  owner := owner

/-- A candidate that refuses the flag is named, and the election goes on among the rest. -/
theorem refusing {lead : Option CaseReference} {refusal failures : List Failure}
    (elected : Elected claims rest asked after lead failures) (lacks : claims r = false)
    (named : refusal.map Failure.case = [r])
    (others : ∀ q ≠ r, asked.get? q = before.get? q) (same : asked.get? r = before.get? r)
    (owner : ∀ q, owner? asked q = owner? before q)
    : Elected claims (r :: rest) before after lead (refusal ++ failures) := by
  have unchanged : ∀ q, asked.get? q = before.get? q := by
    intro q
    by_cases here : q = r
    · rw [here, same]
    · exact others q here
  have names : (refusal ++ failures).map Failure.case = r :: failures.map Failure.case := by
    rw [List.map_append, named, List.singleton_append]
  obtain ⟨left, split, head⟩ := elected.asked
  constructor
  case asked => exact ⟨left, by rw [names, split, List.cons_append], head⟩
  case passed =>
    intro q member
    rw [names] at member
    rcases List.mem_cons.mp member with rfl | later
    · exact lacks
    · exact elected.passed q later
  case known => exact fun q lead has => (elected.known q lead has).trans (unchanged q)
  case taken => exact elected.taken
  case others => exact fun q other => (elected.others q other).trans (unchanged q)
  case owner => exact fun q => (elected.owner q).trans (owner q)

end Steps

variable {claims : CaseReference → Bool} {members : List Member} {lead : Option CaseReference}
  {before after : Register CaseReference SingleCase} {failures : List Failure} {r : CaseReference}
  (elected : Elected claims (leadCandidates members) before after lead failures)

include elected

theorem mem (chosen : lead = some r) : r ∈ members.map Member.case := by
  obtain ⟨rest, split, head⟩ := elected.asked
  rw [← mem_leadCandidates, split]
  exact List.mem_append_right _ (List.mem_of_head? (head.trans chosen))

/-- If nobody was elected, all members are named as failures. -/
theorem named (nobody : lead = none) (member : r ∈ members.map Member.case)
    : r ∈ failures.map Failure.case := by
  obtain ⟨rest, split, head⟩ := elected.asked
  rw [← mem_leadCandidates, split, List.head?_eq_none_iff.mp (head.trans nobody)] at member
  simpa using member

/-- An elected lead has its flag, if those that were said to have it do. -/
theorem claimant (chosen : lead = some r)
    (exact : claims r = true → claimant? before r = some true)
    : claimant? after r = some true := by
  cases has : claims r with
  | false => exact elected.taken r chosen has
  | true =>
      rw [claimant?, elected.known r chosen has]
      exact exact has

/-- The lead by which the members are flagged is elected if it has its flag, since it is asked
first.
-/
theorem eq_of_claims {first : Option CaseReference} (flagged : Multiple.Flagged first members)
    (chosen : first = some r) (member : r ∈ members.map Member.case) (has : claims r = true)
    : lead = some r := by
  obtain ⟨others, order⟩ := leadCandidates_of_flagged flagged chosen member
  obtain ⟨rest, split, head⟩ := elected.asked
  rw [order] at split
  cases failures with
  | nil =>
      rw [List.map_nil, List.nil_append] at split
      rw [← head, ← split]
      rfl
  | cons failure more =>
      have same : r = failure.case := (List.cons.inj split).1
      have passed := elected.passed r (by simp [same])
      rw [has] at passed
      cases passed

/-- The lead that an election leaves a multiple with is one of its members. -/
theorem leads
    : Leads (lead <|> (members.map Member.case).head?) (members.map Member.case) := by
  cases found : lead with
  | none => exact leads_head? _
  | some r =>
      refine ⟨fun chosen => ?_, fun _ => rfl⟩
      cases chosen
      exact elected.mem found

end Elected

namespace Coordinator

variable {k : Coordinator} {claims : CaseReference → Bool} {s : Stores}

/-- Finds the first of some candidates that has the lead flag or takes it, with the failures of
those before it.
-/
def electWriting (k : Coordinator) (claims : CaseReference → Bool)
    : List CaseReference → StateM Stores (Option CaseReference × List Failure)
  | [] => return (none, [])
  | r :: rest =>
      if claims r then return (some r, [])
      else do
        let outcome ← k.fanOutPlan { write := [⟨r, .setLead true⟩] }
        if r ∈ outcome.written then return (some r, [])
        else
          let (lead, failures) ← k.electWriting claims rest
          return (lead, outcome.failures ++ failures)

/-- Asks a candidate to take the lead flag. -/
def ask (k : Coordinator) (r : CaseReference) : StateM Stores Propagation :=
  k.fanOutPlan { write := [⟨r, .setLead true⟩] }

/-- What follows starts from the answer, and from the stores as they are then. -/
theorem ask_bind {α : Type} (r : CaseReference) (next : Propagation → StateM Stores α) (s : Stores)
    : (k.ask r >>= next) s = next (k.ask r s).1 (k.ask r s).2 :=
  rfl

theorem electWriting_nil (s : Stores) : k.electWriting claims [] s = ((none, []), s) :=
  rfl

/-- One candidate is asked at a time. -/
theorem electWriting_cons (r : CaseReference) (rest : List CaseReference) (s : Stores)
    : k.electWriting claims (r :: rest) s
      = if claims r then ((some r, []), s)
        else if r ∈ (k.ask r s).1.written then ((some r, []), (k.ask r s).2)
        else
          let next := k.electWriting claims rest (k.ask r s).2
          ((next.1.1, (k.ask r s).1.failures ++ next.1.2), next.2) := by
  rw [electWriting]
  split
  · rfl
  · refine (ask_bind r _ s).trans ?_
    split <;> rfl

/-- So does a search, which goes on if somebody is left. -/
theorem seekLead_step {references : List CaseReference} (l : LeadSearch references) (s : Stores)
    : k.seekLead claims l s
      = if claims l.candidate then ((some l.candidate, l.failures), s)
        else
          let asked := k.ask l.candidate s
          if l.candidate ∈ asked.1.written then ((some l.candidate, l.failures), asked.2)
          else
            match l.next? asked.1.failures with
            | some next => k.seekLead claims next asked.2
            | none => ((references.head?, l.failures ++ asked.1.failures), asked.2) := by
  rw [seekLead]
  split
  next => rfl
  next =>
    refine (ask_bind l.candidate _ s).trans ?_
    dsimp only
    split
    next => rfl
    next =>
      generalize l.next? (k.ask l.candidate s).1.failures = next?
      cases next? <;> rfl

/-- A search is the election among those whom it may still ask, by induction on those left. -/
theorem seekLead_eq {references : List CaseReference} (l : LeadSearch references) (s : Stores)
    : k.seekLead claims l s
      = let elected := k.electWriting claims l.candidates s
        ((elected.1.1 <|> references.head?, l.failures ++ elected.1.2), elected.2) := by
  rw [seekLead_step, LeadSearch.candidates, electWriting_cons]
  split
  next => simp
  next =>
    dsimp only
    split
    next => simp
    next =>
      cases moves : l.next? (k.ask l.candidate s).1.failures with
      | some next =>
          dsimp only
          rw [seekLead_eq next, LeadSearch.candidates_of_next moves,
            (LeadSearch.of_next moves).2.2]
          dsimp only
          rw [List.append_assoc]
      | none =>
          rw [LeadSearch.remaining_of_last moves, List.eraseDups_nil, electWriting_nil]
          dsimp only
          rw [List.append_nil]
          rfl
termination_by l.remaining.length
decreasing_by exact LeadSearch.length_remaining_of_next moves

/-- An election is nothing but writing, by induction on the candidates. -/
theorem electWriting_wrote (candidates : List CaseReference) (s : Stores)
    : s.Wrote (k.electWriting claims candidates s).2 := by
  induction candidates generalizing s with
  | nil => exact .refl s
  | cons r rest ih =>
      have asked : s.Wrote (k.ask r s).2 := k.fanOutPlan_wrote _ s
      rw [electWriting_cons]
      split
      · exact .refl s
      · split
        · exact asked
        · exact asked.trans (ih _)

/-- A candidate takes the flag, or it is named and nothing has changed. -/
theorem ask_outcome (r : CaseReference) (keyed : s.cases.Keyed)
    : (∀ q ≠ r, (k.ask r s).2.cases.records.get? q = s.cases.records.get? q)
      ∧ (∀ q, owner? (k.ask r s).2.cases.records q = owner? s.cases.records q)
      ∧ (r ∈ (k.ask r s).1.written ∧ claimant? (k.ask r s).2.cases.records r = some true
        ∨ r ∉ (k.ask r s).1.written ∧ (k.ask r s).1.failures.map Failure.case = [r]
          ∧ (k.ask r s).2.cases.records.get? r = s.cases.records.get? r) := by
  let plan : PropagationPlan := { write := [⟨r, .setLead true⟩] }
  have distinct : (plan.writes.map CaseWrite.case).Nodup := List.nodup_singleton r
  obtain ⟨fault, answer, delivered, _⟩ := k.fanOutPlan_delivered plan distinct keyed
  change (k.ask r s).1 = _ at answer
  change Delivered fault _ _ (k.ask r s).2.cases.records at delivered
  generalize k.ask r s = asked at answer delivered ⊢
  have others : ∀ q ≠ r, asked.2.cases.records.get? q = s.cases.records.get? q :=
    fun q other => delivered.untouched fun member => other (List.mem_singleton.mp member)
  rw [answer, Propagation.mem_written_ofFaults]
  cases failed : fault r with
  | none =>
      obtain ⟨c, stored, written⟩ := delivered.applied (List.mem_singleton.mpr rfl) failed
      dsimp only at stored written
      refine ⟨others, fun q => ?_, .inl ⟨⟨List.mem_singleton.mpr rfl, rfl⟩, ?_⟩⟩
      · by_cases same : q = r
        · rw [same, owner?, owner?, written, stored]
          rfl
        · rw [owner?, owner?, others q same]
      · rw [claimant?, written]
        rfl
  | some failure =>
      have refused := delivered.refused failed
      have named := (delivered.named failed).1
      refine ⟨others, fun q => ?_, .inr ⟨fun member => (nomatch member.2), ?_, refused⟩⟩
      · by_cases same : q = r
        · rw [same, owner?, owner?, refused]
        · rw [owner?, owner?, others q same]
      · simp [Propagation.ofFaults, PropagationPlan.writes, plan, failed, named]

/-- An election ends as described, by induction on the candidates. -/
theorem electWriting_elected (k : Coordinator) (claims : CaseReference → Bool)
    (candidates : List CaseReference) (keyed : s.cases.Keyed)
    : Elected claims candidates s.cases.records
        (k.electWriting claims candidates s).2.cases.records
        (k.electWriting claims candidates s).1.1 (k.electWriting claims candidates s).1.2 := by
  induction candidates generalizing s with
  | nil => exact .nobody
  | cons r rest ih =>
      rw [electWriting_cons]
      split
      next has => exact .claiming has
      next lacks =>
        have lacks : claims r = false := by simpa using lacks
        have wrote : s.Wrote (k.ask r s).2 := k.fanOutPlan_wrote _ s
        obtain ⟨others, owner, ⟨takes, flag⟩ | ⟨refuses, named, same⟩⟩ :=
          ask_outcome (k := k) r keyed
        · rw [if_pos takes]
          exact .taking lacks flag others owner
        · rw [if_neg refuses]
          exact (ih (wrote.keyed keyed)).refusing lacks named others same owner

theorem electWriting_of_claims {r : CaseReference} {rest : List CaseReference} (has : claims r)
    (s : Stores)
    : k.electWriting claims (r :: rest) s = ((some r, []), s) := by
  rw [electWriting_cons, if_pos has]

-----------------------------------------------------------------------------------------
-- Repair
-----------------------------------------------------------------------------------------

/-- The repaired members carry the flag of the elected lead, or of the first member. -/
theorem repairLead_eq (members : List Member) (claims : CaseReference → Bool) (s : Stores)
    : k.repairLead members claims s
      = let elected := k.electWriting claims (leadCandidates members) s
        ((withLead members (elected.1.1 <|> (members.map Member.case).head?), elected.1.2),
          elected.2) := by
  unfold repairLead
  cases start : LeadSearch.start? members with
  | some l =>
      obtain ⟨candidates, failures⟩ := LeadSearch.candidates_of_start start
      change (let found := k.seekLead claims l s
        ((withLead members found.1.1, found.1.2), found.2)) = _
      rw [seekLead_eq, candidates, failures]
      rfl
  | none =>
      rw [LeadSearch.members_of_not_start start]
      rfl

theorem repairLead_wrote (members : List Member) (claims : CaseReference → Bool) (s : Stores)
    : s.Wrote (k.repairLead members claims s).2 := by
  rw [repairLead_eq]
  exact electWriting_wrote _ s

/-- Repair writes nothing and changes no member when the flagged lead has its flag. -/
theorem repairLead_of_claims {members : List Member} {lead : Option CaseReference}
    (flagged : Multiple.Flagged lead members) (leads : Leads lead (members.map Member.case))
    (has : ∀ r, lead = some r → claims r = true) (s : Stores)
    : k.repairLead members claims s = ((members, []), s) := by
  cases lead with
  | none =>
      have none : members.map Member.case = [] :=
        Decidable.byContradiction fun some => absurd (leads.isSome some) (by simp)
      rw [List.map_eq_nil_iff.mp none]
      rfl
  | some r =>
      obtain ⟨rest, candidates⟩ := leadCandidates_of_flagged flagged rfl (leads.mem rfl)
      rw [repairLead_eq, candidates, electWriting_of_claims (has r rfl)]
      dsimp only
      rw [show (some r <|> (members.map Member.case).head?) = some r from rfl,
        withLead_of_flagged flagged]

end Coordinator

end CaseGrouping
