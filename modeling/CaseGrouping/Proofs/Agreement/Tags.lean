import CaseGrouping.Proofs.Agreement.Membership
import CaseGrouping.Proofs.Ownership.Frame
import CaseGrouping.Proofs.Round.Clean

/-! Tags in records and on cases. A round without a failure leaves every entry with the tag of its
case, except where it moves a case and the request has no tag: then the case keeps the tag that it
had in the source, and its entry in the target has none.
-/

namespace CaseGrouping

-----------------------------------------------------------------------------------------
-- Tags of stored cases
-----------------------------------------------------------------------------------------

/-- The tag of a stored case, which may be none. -/
def tag? (cases : Register CaseReference SingleCase) (r : CaseReference)
    : Option (Option String) :=
  (cases.get? r).map SingleCase.subGroup

/-- Unless a case leaves, its tag is the one of the change, or else stays. -/
theorem ChangeSet.apply_subGroup {c : ChangeSet} (stays : ∀ m, c.membership ≠ .detach m)
    (case : SingleCase)
    : (c.apply case).subGroup = (c.subGroup <|> case.subGroup) := by
  unfold apply
  split
  · rfl
  · rfl
  next m leaves => exact absurd leaves (stays m)

section Writes

variable {cases : Register CaseReference SingleCase} {writes : List CaseWrite} {w : CaseWrite}
  {case : CaseReference}

theorem tag?_afterWrites (distinct : (writes.map CaseWrite.case).Nodup) (member : w ∈ writes)
    (stays : ∀ m, w.change.membership ≠ .detach m)
    : tag? (afterWrites cases writes) w.case
      = (tag? cases w.case).map fun old => w.change.subGroup <|> old := by
  rw [tag?, get?_afterWrites distinct member, Option.map_map, tag?, Option.map_map]
  congr 1
  exact funext (ChangeSet.apply_subGroup stays)

theorem tag?_afterWrites_of_absent (absent : case ∉ writes.map CaseWrite.case)
    : tag? (afterWrites cases writes) case = tag? cases case := by
  rw [tag?, get?_afterWrites_of_absent absent, tag?]

/-- Cases of no multiple are without a tag after writes each of which sees to that. -/
theorem ungrouped_afterWrites (distinct : (writes.map CaseWrite.case).Nodup)
    (before : ∀ case c, cases.get? case = some c → c.multiple = none → c.subGroup = none)
    (each
      : ∀ w ∈ writes, ∀ c,
          cases.get? w.case = some c
          → (w.change.apply c).multiple = none
          → (w.change.apply c).subGroup = none)
    : ∀ case c,
        (afterWrites cases writes).get? case = some c → c.multiple = none → c.subGroup = none := by
  intro case c found alone
  by_cases sent : case ∈ writes.map CaseWrite.case
  · obtain ⟨w, member, rfl⟩ := List.mem_map.mp sent
    rw [get?_afterWrites distinct member] at found
    obtain ⟨old, stored, rfl⟩ := Option.map_eq_some_iff.mp found
    exact each w member old stored alone
  · rw [get?_afterWrites_of_absent sent] at found
    exact before case c found alone

end Writes

/-- (s.TagsAgree) says that every entry of a record has the tag of its case, and that the cases of
no multiple have none.
-/
structure Stores.TagsAgree (s : Stores) : Prop where
  entries
    : ∀ r m,
        s.multiples.records.get? r = some m
        → ∀ x ∈ m.members, tag? s.cases.records x.case = some x.subGroup
  ungrouped : ∀ case c, s.cases.records.get? case = some c → c.multiple = none → c.subGroup = none

/-- (s.TagsAgreeBut untagged t) says the same of t, except for entries that are untagged: they have
no tag, while their cases have the tags that they have in s.
-/
structure Stores.TagsAgreeBut (untagged : MultipleReference → CaseReference → Prop)
    (s t : Stores) : Prop where
  entries
    : ∀ r m,
        t.multiples.records.get? r = some m
        → ∀ x ∈ m.members, ¬ untagged r x.case → tag? t.cases.records x.case = some x.subGroup
  untagged
    : ∀ r m,
        t.multiples.records.get? r = some m
        → ∀ x ∈ m.members,
            untagged r x.case
            → x.subGroup = none ∧ tag? t.cases.records x.case = tag? s.cases.records x.case
  ungrouped : ∀ case c, t.cases.records.get? case = some c → c.multiple = none → c.subGroup = none

/-- Where no entry is untagged, it says nothing else. -/
theorem Stores.tagsAgreeBut_iff {untagged : MultipleReference → CaseReference → Prop}
    {s t : Stores} (tagged : ∀ r case, ¬ untagged r case)
    : s.TagsAgreeBut untagged t ↔ t.TagsAgree := by
  constructor
  · rintro ⟨entries, _, ungrouped⟩
    exact ⟨fun r m found x member => entries r m found x member (tagged r x.case), ungrouped⟩
  · rintro ⟨entries, ungrouped⟩
    exact ⟨fun r m found x member _ => entries r m found x member,
      fun r _ _ x _ isUntagged => absurd isUntagged (tagged r x.case), ungrouped⟩

-----------------------------------------------------------------------------------------
-- Tags that a round gives
-----------------------------------------------------------------------------------------

namespace Targeting

/-- The tag that a case is to get, if any. -/
def tagOf? (t : Targeting) (case : CaseReference) : Option String :=
  if case ∈ t.cases then t.subGroup else none

theorem tagOf?_eq_some {t : Targeting} {case : CaseReference} {tag : String}
    : t.tagOf? case = some tag ↔ case ∈ t.cases ∧ t.subGroup = some tag := by
  simp [tagOf?]

/-- An entry has the new tag if its case was written to, and the old one otherwise. -/
theorem tagFor_eq (t : Targeting) (case : CaseReference) (previous : Option String)
    (written : Bool)
    : t.tagFor case previous written
      = if written then t.tagOf? case <|> previous else previous := by
  unfold tagFor tagOf?
  cases t.subGroup with
  | none => simp
  | some tag => cases written <;> by_cases targeted : case ∈ t.cases <;> simp [targeted]

end Targeting

namespace Reconciliation

variable {r : Reconciliation} {cases : Register CaseReference SingleCase}
  {writes : List CaseWrite} {case : CaseReference} {x : Member} {tag : String}

/-- A proposed case that is to get a tag is written to. -/
theorem WellPosed.sent_of_tagOf? (posed : r.WellPosed) (carried : r.Carried writes)
    (proposed : case ∈ r.delta.proposed) (given : r.targeting.tagOf? case = some tag)
    : case ∈ writes.map CaseWrite.case := by
  obtain ⟨targeted, given⟩ := Targeting.tagOf?_eq_some.mp given
  obtain ⟨w, planned, rfl⟩ := posed.exists_write proposed targeted fun none => by
    rw [given] at none
    cases none.2
  exact List.mem_map_of_mem (carried.planned w planned)

/-- When all writes are done, a proposed case has the tag that it was given, or else its old one. -/
theorem WellPosed.tag_of_proposed (posed : r.WellPosed) (carried : r.Carried writes)
    (distinct : (writes.map CaseWrite.case).Nodup) (proposed : case ∈ r.delta.proposed)
    : tag? (afterWrites cases writes) case
      = (tag? cases case).map fun old => r.targeting.tagOf? case <|> old := by
  by_cases sent : case ∈ writes.map CaseWrite.case
  · obtain ⟨w, member, rfl⟩ := List.mem_map.mp sent
    have planned := carried.proposed w member proposed
    rw [tag?_afterWrites distinct member (stays_of_write planned), (values_of_write planned).2]
    rfl
  · have plain : r.targeting.tagOf? case = none :=
      Option.eq_none_iff_forall_ne_some.mpr fun tag given =>
        sent (posed.sent_of_tagOf? carried proposed given)
    rw [tag?_afterWrites_of_absent sent, plain]
    exact (Option.map_id_apply).symm

/-- Then the members are proposed cases, with the tag that was written or else the one of the entry
before.
-/
theorem Carried.entry_of_member (carried : r.Carried writes)
    (member : x ∈ r.members (writes.map CaseWrite.case))
    : x.case ∈ r.delta.proposed
      ∧ x.subGroup
        = r.targeting.tagFor x.case ((r.multiple.member? x.case).bind Member.subGroup)
            (decide (x.case ∈ writes.map CaseWrite.case)) := by
  rcases List.mem_append.mp member with entry | kept
  · obtain ⟨case, joined, rfl⟩ := List.mem_map.mp entry
    exact ⟨(mem_joined.mp joined).1, rfl⟩
  · obtain ⟨y, retained, rfl⟩ := List.mem_map.mp kept
    obtain ⟨case, retained, _⟩ := List.mem_filterMap.mp retained
    obtain ⟨leaves, absent⟩ := mem_retained.mp retained
    exact absurd (carried.leaving case leaves) absent

/-- (r.JoinsUntagged case) says that the case joins and is not to get a tag. -/
def JoinsUntagged (r : Reconciliation) (case : CaseReference) : Prop :=
  case ∈ r.delta.toAttach ∧ r.targeting.tagOf? case = none

/-- A member that was given a tag has it in its entry and on its case. For one that stays, both are
as before. One that joins without a tag has none in its entry, and its case is as before.
-/
theorem WellPosed.tag_of_member (posed : r.WellPosed) (carried : r.Carried writes)
    (distinct : (writes.map CaseWrite.case).Nodup)
    (stored : ∀ case ∈ writes.map CaseWrite.case, (cases.get? case).isSome)
    (agree : ∀ x ∈ r.multiple.members, tag? cases x.case = some x.subGroup)
    (member : x ∈ r.members (writes.map CaseWrite.case))
    : (r.JoinsUntagged x.case
        → x.subGroup = none ∧ tag? (afterWrites cases writes) x.case = tag? cases x.case)
      ∧ (¬ r.JoinsUntagged x.case
        → tag? (afterWrites cases writes) x.case = some x.subGroup) := by
  obtain ⟨proposed, entry⟩ := carried.entry_of_member member
  rw [posed.tag_of_proposed carried distinct proposed, entry, Targeting.tagFor_eq]
  cases given : r.targeting.tagOf? x.case with
  | some tag =>
      have sent := posed.sent_of_tagOf? carried proposed given
      obtain ⟨c, found⟩ := Option.isSome_iff_exists.mp (stored x.case sent)
      refine ⟨fun untagged => absurd (given.symm.trans untagged.2) (by simp), fun _ => ?_⟩
      rw [tag?, found, if_pos (decide_eq_true sent)]
      rfl
  | none =>
      have previous : ∀ old : Option String, (none <|> old) = old := fun _ => rfl
      simp only [previous, ite_self]
      refine ⟨fun untagged => ⟨?_, Option.map_id_apply⟩, fun tagged => ?_⟩
      · have unlisted := (posed.splits.mem_toAttach.mp untagged.1).2
        cases found : r.multiple.member? x.case with
        | none => rfl
        | some y =>
            obtain ⟨listed, same⟩ := Multiple.member?_eq_some found
            exact absurd (same ▸ List.mem_map_of_mem listed) unlisted
      · have listed := (posed.stays proposed fun joins => tagged ⟨joins, given⟩).2
        obtain ⟨y, found⟩ := Multiple.exists_member? listed
        obtain ⟨listed, same⟩ := Multiple.member?_eq_some found
        rw [found, ← same, agree y listed]
        rfl

/-- A write of the second phase leaves its case with the multiple. -/
theorem WellPosed.multiple_of_write (posed : r.WellPosed) {w : CaseWrite} {c : SingleCase}
    (listed : ∀ case ∈ r.multiple.memberReferences, owner? cases case = some r.reference)
    (member : w ∈ r.plan.write) (stored : cases.get? w.case = some c)
    : (w.change.apply c).multiple = some r.reference := by
  rw [ChangeSet.apply_multiple]
  by_cases joins : w.case ∈ r.delta.toAttach
  · rw [posed.membership_of_joins member joins]
    rfl
  · have owner := listed w.case (posed.stays (posed.proposed member) joins).2
    rw [owner?, stored] at owner
    rw [membership_of_stays member joins]
    exact owner

end Reconciliation

-----------------------------------------------------------------------------------------
-- Rounds
-----------------------------------------------------------------------------------------

variable {request : RoundRequest} {s t : Stores} {outcome : RoundOutcome}

/-- The entries that a request carries have the tags of their cases. -/
theorem RoundRequest.Carries.tags (carries : request.Carries s) (agree : s.TagsAgree) {x : Member}
    (member : x ∈ request.multiple.members)
    : tag? s.cases.records x.case = some x.subGroup := by
  rcases carries.cases with ⟨q, named, stored⟩ | ⟨empty, _⟩
  · exact agree.entries q _ stored x member
  · rw [empty] at member
    cases member

/-- A case that a reconciliation has join was without a tag: it belonged nowhere. -/
theorem Reconciliation.Prepared.tag_of_joins {r : Reconciliation} (prepared : r.Prepared request s)
    (listed
      : ∀ case, case ∈ r.multiple.memberReferences
        ↔ owner? s.cases.records case = some r.reference)
    (agree : s.TagsAgree) {case : CaseReference} (joins : case ∈ r.delta.toAttach)
    : owner? s.cases.records case = none ∧ tag? s.cases.records case = some none := by
  obtain ⟨c, stored, free | here⟩ := prepared.joining case joins
  · rw [owner?, tag?, stored]
    exact ⟨free, congrArg some (agree.ungrouped case c stored free)⟩
  · refine absurd ((listed case).mpr ?_) (prepared.posed.splits.mem_toAttach.mp joins).2
    rw [owner?, stored]
    exact here

/-- A case that it writes to belonged to its multiple or to none. -/
theorem Reconciliation.Prepared.owner_of_write {r : Reconciliation}
    (prepared : r.Prepared request s)
    (listed
      : ∀ case, case ∈ r.multiple.memberReferences
        ↔ owner? s.cases.records case = some r.reference)
    (agree : s.TagsAgree) {w : CaseWrite} (member : w ∈ r.plan.writes)
    : owner? s.cases.records w.case = none
      ∨ owner? s.cases.records w.case = some r.reference := by
  have posed := prepared.posed
  rcases List.mem_append.mp member with leaves | written
  · exact .inr ((listed _).mp (posed.splits.mem_toDetach.mp (mem_detach_plan.mp leaves).1).1)
  · by_cases joins : w.case ∈ r.delta.toAttach
    · exact .inl (prepared.tag_of_joins listed agree joins).1
    · exact .inr ((listed _).mp (posed.stays (posed.proposed written) joins).2)

/-- A reconciliation without a failure leaves records and cases in agreement on tags. -/
theorem Reconciliation.Done.tagsAgree {r : Reconciliation} (done : r.Done s outcome t)
    (prepared : r.Prepared request s) (carries : request.Carries s) (inMemory : s.InMemory)
    (members : s.MembersAgree) (agree : s.TagsAgree) (clean : outcome.failures = [])
    : t.TagsAgree := by
  obtain ⟨stored, applied, committed, _⟩ := done.clean prepared clean
  obtain ⟨_, _, ⟨fresh, _, records⟩, _, _⟩ := done
  have posed := prepared.posed
  have listed : ∀ case, case ∈ r.multiple.memberReferences
      ↔ owner? s.cases.records case = some r.reference := by
    rw [← prepared.membersOf carries inMemory fresh]
    exact members r.reference
  have own : ∀ x ∈ r.multiple.members, tag? s.cases.records x.case = some x.subGroup := by
    intro x member
    rw [prepared.carried] at member
    exact carries.tags agree member
  rw [show t = { t with cases := t.cases } from rfl]
  constructor
  · intro q m found x member
    rw [applied]
    rw [records, Register.get?_insert] at found
    split at found
    · cases found
      rw [committed] at member
      obtain ⟨untagged, tagged⟩ :=
        posed.tag_of_member posed.carried_writes posed.nodup_writes stored own member
      by_cases joins : r.JoinsUntagged x.case
      · obtain ⟨none, same⟩ := untagged joins
        rw [same, none]
        exact (prepared.tag_of_joins listed agree joins.1).2
      · exact tagged joins
    next other =>
      have belongs := members.owner_of_entry found member
      rw [tag?_afterWrites_of_absent fun sent => ?_]
      · exact agree.entries q m found x member
      · obtain ⟨w, planned, same⟩ := List.mem_map.mp sent
        rcases same ▸ prepared.owner_of_write listed agree planned with none | here
        · exact absurd (belongs.symm.trans none) (by simp)
        · exact other (Option.some.inj (belongs.symm.trans here))
  · rw [applied]
    refine ungrouped_afterWrites posed.nodup_writes agree.ungrouped fun w member c found alone => ?_
    rcases List.mem_append.mp member with leaves | stays
    · obtain ⟨leaves, change⟩ := mem_detach_plan.mp leaves
      have belongs := (listed _).mp (posed.splits.mem_toDetach.mp leaves).1
      rw [owner?, found, Option.bind_some] at belongs
      rw [change]
      simp [ChangeSet.apply, ChangeSet.detach, ChangeSet.writeTo, belongs]
    · rw [posed.multiple_of_write (fun case => (listed case).mp) stays found] at alone
      cases alone

-----------------------------------------------------------------------------------------
-- Moves
-----------------------------------------------------------------------------------------

namespace Movement

variable {m : Movement}

/-- A case that a move writes to belonged to its source or to its target. -/
theorem Prepared.owner_of_write (prepared : m.Prepared request s) (carries : request.Carries s)
    (members : s.MembersAgree) {w : CaseWrite} (member : w ∈ m.writes)
    : owner? s.cases.records w.case = some m.target.reference
      ∨ owner? s.cases.records w.case = some m.source.reference := by
  rcases List.mem_append.mp member with toTarget | toSource
  · rcases (prepared.mem_proposed w.case).mp (prepared.target.proposed toTarget) with stays | moves
    · exact .inl ((prepared.listed_target members w.case).mp stays)
    · have current := (prepared.source.splits.mem_toDetach.mp moves).1
      exact .inr ((prepared.listed_source carries members w.case).mp current)
  · have stays := prepared.member_of_proposed_source (prepared.source.proposed toSource)
    exact .inr ((prepared.listed_source carries members w.case).mp stays)

/-- A write of a move leaves its case with a multiple. -/
theorem Prepared.multiple_of_write (prepared : m.Prepared request s) (carries : request.Carries s)
    (members : s.MembersAgree) {w : CaseWrite} {c : SingleCase} (member : w ∈ m.writes)
    (stored : s.cases.records.get? w.case = some c)
    : (w.change.apply c).multiple ≠ none := by
  rcases List.mem_append.mp member with toTarget | toSource
  · rw [prepared.target.multiple_of_write (fun case => (prepared.listed_target members case).mp)
      toTarget stored]
    exact Option.some_ne_none _
  · rw [prepared.source.multiple_of_write
      (fun case => (prepared.listed_source carries members case).mp) toSource stored]
    exact Option.some_ne_none _

/-- A move without a failure leaves records and cases in agreement on tags, except for the entries
of cases that have joined the target without a tag.
-/
theorem Done.tagsAgreeBut (done : m.Done s outcome t) (prepared : m.Prepared request s)
    (carries : request.Carries s) (members : s.MembersAgree) (agree : s.TagsAgree)
    (clean : outcome.failures = [])
    : s.TagsAgreeBut (fun q case => q = m.target.reference ∧ m.target.JoinsUntagged case) t := by
  have apart := prepared.apart_of_agree carries members
  obtain ⟨movedTo, moved, stored, applied, inTarget, inSource, _⟩ :=
    done.clean prepared apart clean
  obtain ⟨_, _, _, ⟨_, _, _, _, records⟩, moved', _⟩ := done
  obtain rfl := Option.some.inj (moved.symm.trans moved')
  have distinct := prepared.nodup_writes apart
  have ofTarget : ∀ x ∈ movedTo.members, _ := fun x member =>
    prepared.target.tag_of_member (prepared.carried_target apart) distinct stored
      (agree.entries _ _ prepared.stored) (inTarget ▸ member)
  have ofSource : ∀ x ∈ outcome.multiple.members,
      tag? (afterWrites s.cases.records m.writes) x.case = some x.subGroup := by
    intro x member
    refine (prepared.source.tag_of_member (prepared.carried_source apart) distinct stored
      (fun y listed => carries.tags agree (prepared.carried ▸ listed)) (inSource ▸ member)).2 ?_
    rintro ⟨joins, _⟩
    rw [prepared.nobody_joins] at joins
    cases joins
  have elsewhere : ∀ q record,
      q ≠ m.target.reference
      → q ≠ m.source.reference
      → s.multiples.records.get? q = some record
      → ∀ x ∈ record.members,
          tag? (afterWrites s.cases.records m.writes) x.case = some x.subGroup := by
    intro q record notTarget notSource found x member
    rw [tag?_afterWrites_of_absent fun sent => ?_]
    · exact agree.entries q record found x member
    · have belongs := members.owner_of_entry found member
      obtain ⟨w, planned, same⟩ := List.mem_map.mp sent
      rcases same ▸ prepared.owner_of_write carries members planned with here | here
      · exact notTarget (Option.some.inj (belongs.symm.trans here))
      · exact notSource (Option.some.inj (belongs.symm.trans here))
  constructor
  · intro q record found x member tagged
    rw [applied]
    rw [records, Register.get?_insert] at found
    split at found
    · cases found
      exact ofSource x member
    next notSource =>
      rw [Register.get?_insert] at found
      split at found
      next here =>
        cases found
        exact (ofTarget x member).2 fun joins => tagged ⟨here, joins⟩
      next notTarget => exact elsewhere q record notTarget notSource found x member
  · rintro _ record found x member ⟨rfl, joins⟩
    rw [applied]
    rw [records, Register.get?_insert_of_ne _ _ prepared.apart, Register.get?_insert_self] at found
    cases found
    exact (ofTarget x member).1 joins
  · rw [applied]
    exact ungrouped_afterWrites distinct agree.ungrouped fun w member c found alone =>
      absurd alone (prepared.multiple_of_write carries members member found)

end Movement

-----------------------------------------------------------------------------------------
-- Rounds of all kinds
-----------------------------------------------------------------------------------------

namespace RoundRequest

/-- The tag that a request wants its matched cases to get. -/
def subGroup : RoundRequest → Option String
  | .create _ => none
  | .update request => request.subGroup

/-- (request.MovesUntagged r case) says that the request has no tag and moves the case to r. -/
def MovesUntagged (request : RoundRequest) (r : MultipleReference) (case : CaseReference) : Prop :=
  request.target? = some r
  ∧ request.subGroup = none
  ∧ case ∈ request.matched
  ∧ case ∈ request.multiple.memberReferences

end RoundRequest

namespace Coordinator

variable {k : Coordinator}

/-- Those who join the target of a move without a tag are moved by a request without one. -/
theorem Prepares.joinsUntagged_iff {m : Movement} (prepares : k.Prepares s request (.move m))
    (prepared : m.Prepared request s) (apart : m.Apart) (q : MultipleReference)
    (case : CaseReference)
    : q = m.target.reference ∧ m.target.JoinsUntagged case ↔ request.MovesUntagged q case := by
  cases request with
  | create request => cases prepares
  | update request =>
      obtain ⟨targeted, _, tag⟩ := prepares.targeting
      have joins : case ∈ m.target.delta.toAttach ↔ case ∈ m.source.delta.toDetach := by
        refine ⟨fun joins => ?_, prepared.joins_target apart⟩
        obtain ⟨proposed, absent⟩ := prepared.target.splits.mem_toAttach.mp joins
        exact ((prepared.mem_proposed case).mp proposed).resolve_left absent
      have untagged : m.target.JoinsUntagged case
          ↔ request.subGroup = none ∧ case ∈ m.source.delta.toDetach := by
        rw [Reconciliation.JoinsUntagged, joins, Targeting.tagOf?, tag]
        constructor
        · rintro ⟨moves, none⟩
          rw [if_pos ((targeted case).mpr moves)] at none
          exact ⟨none, moves⟩
        · rintro ⟨none, moves⟩
          rw [if_pos ((targeted case).mpr moves)]
          exact ⟨moves, none⟩
      rw [untagged, prepares.leaves, RoundRequest.MovesUntagged, prepared.named, Option.some_inj]
      exact and_congr_left fun _ => eq_comm

/-- A round through the pool without a failure, on records and cases that agree, leaves every entry
of every record with the tag of its case. The exception is a move with a request that has no tag:
the cases that it moves keep the tags that they had in the source, but their entries in the target
have none.
-/
theorem carryOut_tags (k : Coordinator) (inMemory : s.InMemory) (consistent : s.Consistent)
    (agree : s.TagsAgree) (carries : request.Carries s)
    (mode : request.mode = .synchronousFanOut)
    (returns : (k.carryOut request).Returns s outcome t) (clean : outcome.failures = [])
    : s.TagsAgreeBut request.MovesUntagged t := by
  have members := consistent.members
  obtain ⟨work, prepares, prepared, done⟩ :=
    carryOut_prepared_done inMemory members carries mode returns
  cases work with
  | reconcile r =>
      have stays : request.target? = none := by
        cases prepares with
        | creation _ _ _ => rfl
        | inPlace _ _ stays _ => exact stays
      refine (Stores.tagsAgreeBut_iff fun q case moves => ?_).mpr
        (Reconciliation.Done.tagsAgree done prepared carries inMemory members agree clean)
      exact absurd (stays.symm.trans moves.1) (by simp)
  | move m =>
      have apart := Movement.Prepared.apart_of_agree prepared carries members
      have after := Movement.Done.tagsAgreeBut done prepared carries members agree clean
      have same : (fun q case => q = m.target.reference ∧ m.target.JoinsUntagged case)
          = request.MovesUntagged :=
        funext₂ fun q case => propext (prepares.joinsUntagged_iff prepared apart q case)
      exact same ▸ after

end Coordinator

namespace Sample

/-- A record of the first multiple that lists the first case with a tag. -/
def labelled : Multiple :=
  record.withMembers [{ case := one, lead := true, subGroup := "North" }]

/-- The case belongs to that multiple and has the tag; the other multiple has no members. -/
def tagged : Stores where
  cases :=
    .ofList
      [{ reference := one, multiple := some group, leadClaimant := true, subGroup := "North" }]
  multiples :=
    { records := (Register.insert ∅ group labelled).insert other { record with reference := other } }

theorem reachable_tagged : tagged.Reachable := by
  have first : Stores.Reachable { multiples := { records := Register.insert ∅ group labelled } } :=
    .seed (m := labelled) (.empty (s := {}) rfl rfl rfl rfl) rfl
  have seeded : Stores.Reachable { multiples := tagged.multiples } :=
    .seed (m := { record with reference := other }) first rfl
  exact .insert
    { reference := one, multiple := some group, leadClaimant := true, subGroup := "North" } seeded

/-- The only case that is stored is the one with the tag, and the only entry is the one for it. -/
theorem agree_tagged : tagged.Consistent ∧ tagged.TagsAgree := by
  have stored : ∀ case, tagged.cases.records.get? case
      = if case = one then
          some { reference := one, multiple := some group, leadClaimant := true,
                 subGroup := "North" }
        else none := by
    intro case
    simp only [tagged, CaseStore.ofList, List.foldl_cons, List.foldl_nil, CaseStore.insert,
      Register.get?_insert]
    rfl
  have listed : ∀ r, tagged.multiples.records.get? r
      = if r = other then some { record with reference := other }
        else if r = group then some labelled else none := by
    intro r
    simp only [tagged, Register.get?_insert]
    rfl
  have entries : ∀ r m, tagged.multiples.records.get? r = some m → ∀ x ∈ m.members,
      x = { case := one, lead := true, subGroup := "North" } := by
    intro r m found x member
    rw [listed] at found
    split at found
    · cases found
      cases member
    · split at found
      · cases found
        exact List.mem_singleton.mp member
      · cases found
  refine ⟨⟨fun r case => ?_, fun r m found x member => ?_⟩, fun r m found x member => ?_,
    fun case c found alone => ?_⟩
  · rw [owner?, stored, Stores.membersOf, listed]
    by_cases first : case = one
    · subst first
      by_cases here : r = group
      · subst here
        decide
      · by_cases there : r = other
        · subst there
          decide
        · simp [here, there, Ne.symm here]
    · by_cases here : r = group
      · subst here
        simp [first, labelled, Multiple.memberReferences, Multiple.withMembers, other, group]
      · by_cases there : r = other
        · subst there
          simp [first, record, Multiple.memberReferences]
        · simp [here, there, first]
  · rw [entries r m found x member, claimant?, stored]
    decide
  · rw [entries r m found x member, tag?, stored]
    decide
  · rw [stored] at found
    split at found
    · cases found
      cases alone
    · cases found

/-- The case is to move to the other multiple, and the request has no tag. -/
def untagging : RoundRequest :=
  .update { multiple := labelled, matched := [one], target := other }

theorem carries_untagging : untagging.Carries tagged :=
  ⟨group, rfl, rfl⟩

/-- The move succeeds. The only entry of the other record is without a tag, and its case has one. -/
theorem exists_untagged
    : ∃ (outcome : RoundOutcome) (t : Stores) (m : Multiple),
        (coordinator.carryOut untagging).Returns tagged outcome t
        ∧ outcome.failures = []
        ∧ t.multiples.records.get? other = some m
        ∧ m.members = [{ case := one, lead := true }]
        ∧ tag? t.cases.records one = some (some "North") := by
  obtain ⟨outcome, t, returns, told⟩
      : ∃ outcome t,
          (coordinator.carryOut untagging).Returns tagged outcome t
          ∧ (outcome.failures, (t.multiples.records.get? other).map Multiple.members,
              tag? t.cases.records one)
            = ([], some [{ case := one, lead := true }], some (some "North")) :=
    Round.exists_returns_leaving (by decide +kernel)
  simp only [Prod.mk.injEq] at told
  obtain ⟨clean, entries, tag⟩ := told
  obtain ⟨m, found, members⟩ := Option.map_eq_some_iff.mp entries
  exact ⟨outcome, t, m, returns, clean, found, members, tag⟩

/-- The case that has moved keeps its tag, which its new entry does not have. -/
theorem tag_kept_by_case
    : ∃ (outcome : RoundOutcome) (t : Stores) (m : Multiple),
        (coordinator.carryOut untagging).Returns tagged outcome t
        ∧ t.multiples.records.get? other = some m
        ∧ ∀ x ∈ m.members,
            x.subGroup = none ∧ tag? t.cases.records x.case = some (some "North") := by
  obtain ⟨outcome, t, m, returns, clean, found, members, _⟩ := exists_untagged
  obtain ⟨consistent, agree⟩ := agree_tagged
  obtain ⟨_, untagged, _⟩ := coordinator.carryOut_tags reachable_tagged.inMemory consistent agree
    carries_untagging rfl returns clean
  refine ⟨outcome, t, m, returns, found, fun x member => ?_⟩
  obtain rfl : x = { case := one, lead := true } := List.mem_singleton.mp (members ▸ member)
  exact untagged other m found _ member ⟨rfl, rfl, by decide, by decide⟩

/-- So a round without a failure need not leave every entry with the tag of its case. -/
theorem entry_without_tag
    : ¬ ∀ (k : Coordinator) (s t : Stores) (request : RoundRequest) (outcome : RoundOutcome),
          s.Reachable
          → s.Consistent
          → s.TagsAgree
          → request.Carries s
          → request.mode = .synchronousFanOut
          → (k.carryOut request).Returns s outcome t
          → outcome.failures = []
          → ∀ r m,
              t.multiples.records.get? r = some m
              → ∀ x ∈ m.members, tag? t.cases.records x.case = some x.subGroup := by
  intro claim
  obtain ⟨outcome, t, m, returns, clean, found, members, tag⟩ := exists_untagged
  obtain ⟨consistent, agree⟩ := agree_tagged
  have same := claim coordinator tagged t untagging outcome reachable_tagged consistent agree
    carries_untagging rfl returns clean other m found { case := one, lead := true }
    (members ▸ List.mem_singleton_self _)
  cases tag.symm.trans same

end Sample

end CaseGrouping
