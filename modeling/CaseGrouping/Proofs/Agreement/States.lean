import CaseGrouping.Proofs.Round.Synchronous

/-! States in which cases and records tell the same of membership and leads, and requests that
carry the records of the state that they are made on.
-/

namespace CaseGrouping

namespace Stores

variable {s : Stores} {r : MultipleReference} {m : Multiple}

/-- The members that the stored record of a multiple lists. -/
def membersOf (s : Stores) (r : MultipleReference) : List CaseReference :=
  match s.multiples.records.get? r with
  | some m => m.memberReferences
  | none => []

theorem membersOf_of_get? (found : s.multiples.records.get? r = some m)
    : s.membersOf r = m.memberReferences := by
  rw [membersOf, found]

theorem membersOf_of_absent (absent : s.multiples.records.get? r = none)
    : s.membersOf r = [] := by
  rw [membersOf, absent]

/-- A case is listed by the record of a multiple exactly when the stored case belongs to it. -/
def MembersAgree (s : Stores) : Prop :=
  ∀ r case, case ∈ s.membersOf r ↔ owner? s.cases.records case = some r

/-- Then the case of an entry belongs to the multiple of the record. -/
theorem MembersAgree.owner_of_entry (agree : s.MembersAgree)
    (found : s.multiples.records.get? r = some m) {x : Member} (member : x ∈ m.members)
    : owner? s.cases.records x.case = some r := by
  rw [← agree r, membersOf_of_get? found]
  exact List.mem_map_of_mem member

/-- Records and cases agree on membership, and a case has the lead flag of its entry. -/
structure Consistent (s : Stores) : Prop where
  members : s.MembersAgree
  leads
    : ∀ r m,
        s.multiples.records.get? r = some m
        → ∀ x ∈ m.members, claimant? s.cases.records x.case = some x.lead

/-- Records without members agree with cases that belong to no multiple. -/
theorem consistent_of_ungrouped
    (records : ∀ r m, s.multiples.records.get? r = some m → m.members = [])
    (cases : ∀ r, owner? s.cases.records r = none)
    : s.Consistent where
  members := by
    intro r case
    rw [cases, membersOf]
    cases found : s.multiples.records.get? r with
    | none => simp
    | some m => simp [Multiple.memberReferences, records r m found]
  leads := by
    intro r m found x member
    rw [records r m found] at member
    cases member

end Stores

/-- (request.Carries s) says that a request carries the multiple as it is stored; a creation may
also be for a multiple without members that is not stored.
-/
def RoundRequest.Carries (s : Stores) : RoundRequest → Prop
  | .create request =>
      (∃ r, request.multiple.reference = some r
        ∧ s.multiples.records.get? r = some request.multiple)
      ∨ request.multiple.members = []
        ∧ ∀ r, request.multiple.reference = some r → s.multiples.records.get? r = none
  | .update request =>
      ∃ r, request.multiple.reference = some r
        ∧ s.multiples.records.get? r = some request.multiple

namespace RoundRequest.Carries

variable {request : RoundRequest} {s : Stores}

/-- Either the multiple is stored as it is carried, or it has no members and is not stored. -/
theorem cases (carries : request.Carries s)
    : (∃ r, request.multiple.reference = some r
        ∧ s.multiples.records.get? r = some request.multiple)
      ∨ request.multiple.members = []
        ∧ ∀ r, request.multiple.reference = some r → s.multiples.records.get? r = none := by
  cases request with
  | create => exact carries
  | update => exact .inl carries

/-- The carried members are those that are listed under the reference of the multiple. -/
theorem membersOf (carries : request.Carries s) {r : MultipleReference}
    (own : request.multiple.reference = some r)
    : s.membersOf r = request.multiple.memberReferences := by
  rcases carries.cases with ⟨q, named, stored⟩ | ⟨empty, absent⟩
  · rw [own] at named
    cases named
    exact Stores.membersOf_of_get? stored
  · rw [Stores.membersOf_of_absent (absent r own), Multiple.memberReferences, empty]
    rfl

theorem leads (carries : request.Carries s) (consistent : s.Consistent) {x : Member}
    (member : x ∈ request.multiple.members)
    : claimant? s.cases.records x.case = some x.lead := by
  rcases carries.cases with ⟨q, named, stored⟩ | ⟨empty, _⟩
  · exact consistent.leads q _ stored x member
  · rw [empty] at member
    cases member

end RoundRequest.Carries

namespace Reconciliation

variable {request : RoundRequest} {r : Reconciliation} {s t : Stores} {outcome : RoundOutcome}

/-- A prepared reconciliation starts from the members that are listed under its reference, also
when this is new: then nothing was stored under it.
-/
theorem Prepared.membersOf (prepared : r.Prepared request s) (carries : request.Carries s)
    (inMemory : s.InMemory) (fresh : s.multiples.version? r.reference = r.expected)
    : s.membersOf r.reference = r.multiple.memberReferences := by
  have same : r.multiple.memberReferences = request.multiple.memberReferences := by
    rw [prepared.carried]
    rfl
  rw [same]
  rcases prepared.own with own | ⟨none, unversioned⟩
  · exact carries.membersOf own
  · rcases carries.cases with ⟨q, named, _⟩ | ⟨empty, _⟩
    · rw [none] at named
      cases named
    · rw [unversioned] at fresh
      have absent := inMemory.filed.version?_eq_none fresh
      rw [Stores.membersOf_of_absent absent, Multiple.memberReferences, empty]
      rfl

/-- The cases that a prepared reconciliation is about are stored, if its members are. -/
theorem Prepared.stored {case : CaseReference} (prepared : r.Prepared request s)
    (members : ∀ q ∈ r.multiple.memberReferences, (s.cases.records.get? q).isSome)
    (concerned : case ∈ r.delta.proposed ∨ case ∈ r.delta.toDetach)
    : (s.cases.records.get? case).isSome := by
  rcases concerned with proposed | leaves
  · by_cases joins : case ∈ r.delta.toAttach
    · obtain ⟨c, found, _⟩ := prepared.joining case joins
      rw [found, Option.isSome_some]
    · exact members case (prepared.posed.stays proposed joins).2
  · exact members case (prepared.posed.splits.mem_toDetach.mp leaves).1

end Reconciliation

end CaseGrouping
