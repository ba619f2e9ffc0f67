import CaseGrouping.Multiple
import CaseGrouping.Proofs.Membership.Delta
import Mathlib.Data.List.Nodup

/-! What the checks on multiples amount to, and who the lead of a checked multiple is.
-/

namespace CaseGrouping

namespace Multiple

variable {m : Multiple} {x : Member}

/-- No case is found a second time when the cases are different from each other and from those seen
before, by induction on the cases.
-/
theorem firstRepeated?_eq_none {seen rs : List CaseReference}
    : firstRepeated? seen rs = none ↔ rs.Nodup ∧ ∀ r ∈ rs, r ∉ seen := by
  induction rs generalizing seen with
  | nil => simp [firstRepeated?]
  | cons r rest ih =>
      rw [firstRepeated?]
      split
      next repeated => simp [repeated]
      next fresh =>
        rw [ih, List.nodup_cons]
        constructor
        · rintro ⟨distinct, unseen⟩
          refine ⟨⟨fun again => unseen r again (by simp), distinct⟩, fun q member => ?_⟩
          rcases List.mem_cons.mp member with rfl | member
          · exact fresh
          · exact fun before => unseen q member (by simp [before])
        · rintro ⟨⟨once, distinct⟩, unseen⟩
          refine ⟨distinct, fun q member again => ?_⟩
          rcases List.mem_cons.mp again with rfl | before
          · exact once member
          · exact unseen q (by simp [member]) before

/-- What may be sent has at most one lead and no case twice. -/
theorem validateIncoming_eq_ok
    : m.validateIncoming = .ok ()
      ↔ (m.members.filter (·.lead)).length ≤ 1 ∧ m.memberReferences.Nodup := by
  unfold validateIncoming
  simp only [List.length_map]
  split
  next several =>
    refine ⟨fun h => (by cases h), fun h => ?_⟩
    omega
  next single =>
    split
    next r repeated =>
      refine ⟨fun h => (by cases h), fun h => ?_⟩
      have none : firstRepeated? [] m.memberReferences = none :=
        firstRepeated?_eq_none.mpr ⟨h.2, fun _ _ => List.not_mem_nil⟩
      rw [none] at repeated
      cases repeated
    next none =>
      refine ⟨fun _ => ⟨by omega, (firstRepeated?_eq_none.mp none).1⟩, fun _ => rfl⟩

theorem checkReference_of_reference {r : MultipleReference} (own : m.reference = some r)
    : m.checkReference = .ok () := by
  rw [checkReference, own]
  rfl

/-- What may be committed mirrors its members besides, and has a lead if it has members. -/
theorem checkInvariants_eq_ok
    : m.checkInvariants = .ok ()
      ↔ m.validateIncoming = .ok ()
        ∧ m.counter = m.members.length
        ∧ m.collection = m.memberReferences
        ∧ (m.members ≠ [] → m.leadCase?.isSome) := by
  unfold checkInvariants
  cases m.validateIncoming with
  | error e => exact ⟨fun h => (by cases h), fun h => (by cases h.1)⟩
  | ok =>
      change (if _ then _ else _ : Except ValidationError Unit) = .ok () ↔ _
      split
      next differs =>
        refine ⟨fun h => (by cases h), fun h => ?_⟩
        rcases differs with counter | collection
        · exact absurd h.2.1 counter
        · exact absurd h.2.2.1 collection
      next mirrors =>
        rw [not_or, not_not, not_not] at mirrors
        split
        next missing =>
          refine ⟨fun h => (by cases h), fun h => ?_⟩
          have present := h.2.2.2 missing.1
          rw [Option.isNone_iff_eq_none.mp missing.2] at present
          cases present
        next present =>
          refine ⟨fun _ => ⟨rfl, mirrors.1, mirrors.2, fun members => ?_⟩, fun _ => rfl⟩
          refine Option.isSome_iff_ne_none.mpr fun missing => present ⟨members, ?_⟩
          rw [missing]
          rfl

-----------------------------------------------------------------------------------------
-- Members and the lead
-----------------------------------------------------------------------------------------

/-- The entry of a case is a member with this case. -/
theorem member?_eq_some {r : CaseReference} (h : m.member? r = some x)
    : x ∈ m.members ∧ x.case = r :=
  ⟨List.mem_of_find?_eq_some h, by simpa using List.find?_some h⟩

/-- Every case among the members has an entry. -/
theorem exists_member? {r : CaseReference} (h : r ∈ m.memberReferences)
    : ∃ x, m.member? r = some x := by
  obtain ⟨x, member, rfl⟩ := List.mem_map.mp h
  exact Option.isSome_iff_exists.mp (List.find?_isSome.mpr ⟨x, member, by simp⟩)

/-- The lead is a member with the flag. -/
theorem exists_of_leadCase? {r : CaseReference} (h : m.leadCase? = some r)
    : ∃ x ∈ m.members, x.lead = true ∧ x.case = r := by
  obtain ⟨x, found, rfl⟩ := Option.map_eq_some_iff.mp h
  exact ⟨x, List.mem_of_find?_eq_some found, List.find?_some found, rfl⟩

theorem mem_of_leadCase? {r : CaseReference} (h : m.leadCase? = some r)
    : r ∈ m.memberReferences := by
  obtain ⟨x, member, _, rfl⟩ := exists_of_leadCase? h
  exact List.mem_map_of_mem member

/-- In what may be sent, the flag tells the lead from the other members. -/
theorem lead_iff_leadCase? (valid : m.validateIncoming = .ok ()) (member : x ∈ m.members)
    : x.lead = true ↔ m.leadCase? = some x.case := by
  obtain ⟨single, distinct⟩ := validateIncoming_eq_ok.mp valid
  constructor
  · intro flag
    have some : (m.members.find? (·.lead)).isSome := List.find?_isSome.mpr ⟨x, member, flag⟩
    obtain ⟨y, found⟩ := Option.isSome_iff_exists.mp some
    have first : y ∈ m.members.filter (·.lead) :=
      List.mem_filter.mpr ⟨List.mem_of_find?_eq_some found, List.find?_some found⟩
    have second : x ∈ m.members.filter (·.lead) := List.mem_filter.mpr ⟨member, flag⟩
    -- Two members with the flag would be two leads.
    obtain ⟨i, hi, rfl⟩ := List.mem_iff_getElem.mp first
    obtain ⟨j, hj, rfl⟩ := List.mem_iff_getElem.mp second
    have same : i = j := by omega
    subst same
    rw [leadCase?, found]
    rfl
  · intro lead
    obtain ⟨y, other, flag, same⟩ := exists_of_leadCase? lead
    rw [List.inj_on_of_nodup_map distinct other member same] at flag
    exact flag

-----------------------------------------------------------------------------------------
-- Members that are flagged by a lead
-----------------------------------------------------------------------------------------

/-- (Flagged lead members) says that the member which is the lead has the flag, and no other. -/
def Flagged (lead : Option CaseReference) (members : List Member) : Prop :=
  ∀ x ∈ members, x.lead = decide (lead = some x.case)

/-- The lead that the members are flagged by is found among them. -/
theorem leadCase?_of_flagged {lead : Option CaseReference} (flagged : Flagged lead m.members)
    (leads : Leads lead m.memberReferences)
    : m.leadCase? = lead := by
  cases found : m.leadCase? with
  | some r =>
      obtain ⟨x, member, flag, rfl⟩ := exists_of_leadCase? found
      rw [flagged x member] at flag
      exact (of_decide_eq_true flag).symm
  | none =>
      refine (Option.eq_none_iff_forall_ne_some.mpr fun r chosen => ?_).symm
      obtain ⟨x, member, rfl⟩ := List.mem_map.mp (leads.mem chosen)
      have absent := List.find?_eq_none.mp (Option.map_eq_none_iff.mp found) x member
      exact absent (by rw [flagged x member, chosen]; simp)

/-- Different members flagged by a lead among them pass all checks in a record that mirrors them. -/
theorem checkInvariants_of_flagged {lead : Option CaseReference}
    (distinct : m.memberReferences.Nodup) (flagged : Flagged lead m.members)
    (leads : Leads lead m.memberReferences) (counter : m.counter = m.members.length)
    (collection : m.collection = m.memberReferences)
    : m.checkInvariants = .ok () := by
  have single : (m.members.filter (·.lead)).length ≤ 1 := by
    cases lead with
    | none =>
        have none : m.members.filter (·.lead) = [] := by
          refine List.filter_eq_nil_iff.mpr fun x member => ?_
          rw [flagged x member]
          simp
        simp [none]
    | some chosen =>
        have same : ∀ r ∈ (m.members.filter (·.lead)).map Member.case, r = chosen := by
          intro r listed
          obtain ⟨x, filtered, rfl⟩ := List.mem_map.mp listed
          obtain ⟨member, flag⟩ := List.mem_filter.mp filtered
          rw [flagged x member] at flag
          exact (Option.some.inj (of_decide_eq_true flag)).symm
        have once : ((m.members.filter (·.lead)).map Member.case).Nodup :=
          (List.filter_sublist.map Member.case).nodup distinct
        rw [List.eq_replicate_of_mem same, List.nodup_replicate, List.length_map] at once
        exact once
  refine checkInvariants_eq_ok.mpr
    ⟨validateIncoming_eq_ok.mpr ⟨single, distinct⟩, counter, collection, fun members => ?_⟩
  rw [leadCase?_of_flagged flagged leads]
  exact leads.isSome fun none => members (List.map_eq_nil_iff.mp none)

end Multiple

end CaseGrouping
