import CaseGrouping.Proofs.Agreement.States
import CaseGrouping.Proofs.Ownership.InPlace

/-! The frame of a round: which cases and records it leaves alone, and what it may change in the
others. A round of any kind writes to cases that its request names, in either mode and however it
ends.
-/

namespace CaseGrouping

-----------------------------------------------------------------------------------------
-- What a request names
-----------------------------------------------------------------------------------------

namespace RoundRequest

/-- The cases that a request asks for, in the order of their lists. -/
def requested : RoundRequest → List CaseReference
  | .create request => request.requested
  | .update request => request.requested

/-- The cases that a request has found by a search. -/
def matched : RoundRequest → List CaseReference
  | .create request => request.matched
  | .update request => request.matched

/-- (request.Names s case) says that the request names the case, in one of its lists or among its
members, or that the multiple which cases are to move to has it as a member.
-/
def Names (s : Stores) (request : RoundRequest) (case : CaseReference) : Prop :=
  case ∈ request.multiple.memberReferences
  ∨ case ∈ request.requested
  ∨ case ∈ request.matched
  ∨ ∃ target, request.target? = some target ∧ case ∈ s.membersOf target

/-- (request.Edits case key value) says that the request has a case found and a value for a field of
such cases.
-/
def Edits (request : RoundRequest) (case : CaseReference) (key : String) (value : Json.Value)
    : Prop :=
  case ∈ request.matched ∧ request.edits.get? key = some value

end RoundRequest

-----------------------------------------------------------------------------------------
-- Cases that may be written to
-----------------------------------------------------------------------------------------

/-- (Touched named edits before now) says how a write may leave a case: with its reference and its
status, unchanged unless it is named, and with no field changed except to a value of the edits.
-/
structure Touched (named : Prop) (edits : String → Json.Value → Prop)
    (before now : SingleCase) : Prop where
  reference : now.reference = before.reference
  status : now.status = before.status
  unnamed : ¬ named → now = before
  fields
    : ∀ key,
        now.fields.get? key = before.fields.get? key
        ∨ ∃ value, edits key value ∧ now.fields.get? key = some value

namespace Touched

variable {named : Prop} {edits : String → Json.Value → Prop} {before now : SingleCase}

theorem refl (named : Prop) (edits : String → Json.Value → Prop) (c : SingleCase)
    : Touched named edits c c :=
  ⟨rfl, rfl, fun _ => rfl, fun _ => .inl rfl⟩

/-- A change of a named case that brings values of the edits at most is a touch. -/
theorem apply (touched : Touched named edits before now) (known : named) {change : ChangeSet}
    (within : ∀ key value, change.fields.get? key = some value → edits key value)
    : Touched named edits before (change.apply now) where
  reference := (change.apply_reference now).trans touched.reference
  status := (change.apply_status now).trans touched.status
  unnamed := fun absent => absurd known absent
  fields := fun key => by
    rcases change.apply_field now key with written | same
    · rw [written]
      cases given : change.fields.get? key with
      | some value => exact .inr ⟨value, within key value given, rfl⟩
      | none => exact touched.fields key
    · rw [same]
      exact touched.fields key

end Touched

/-- (w.Within named edits) says that a write is to a named case and brings values of the edits at
most.
-/
def CaseWrite.Within (named : CaseReference → Prop)
    (edits : CaseReference → String → Json.Value → Prop) (w : CaseWrite) : Prop :=
  named w.case ∧ ∀ key value, w.change.fields.get? key = some value → edits w.case key value

section Within

variable {named : CaseReference → Prop} {edits : CaseReference → String → Json.Value → Prop}
  {case : CaseReference}

theorem CaseWrite.Within.leaves {w : CaseWrite} (within : w.Within named edits)
    (case : CaseReference) (c : SingleCase)
    : w.Leaves case (Touched (named case) (edits case) c) := by
  rintro rfl now touched
  exact touched.apply within.1 within.2

/-- (r.Within named edits) says the same of all writes that a reconciliation can send. -/
def Reconciliation.Within (named : CaseReference → Prop)
    (edits : CaseReference → String → Json.Value → Prop) (r : Reconciliation) : Prop :=
  (∀ w ∈ r.plan.writes, w.Within named edits) ∧ r.Flags (CaseWrite.Within named edits)

/-- The writes of a reconciliation are to cases that it proposes or has leave, and bring its values
to those that are to get them.
-/
theorem Reconciliation.WellPosed.within {r : Reconciliation} (posed : r.WellPosed)
    (known : ∀ case, case ∈ r.delta.proposed ∨ case ∈ r.delta.toDetach → named case)
    (given
      : ∀ case ∈ r.targeting.cases, ∀ key value,
          r.targeting.edits.get? key = some value → edits case key value)
    : r.Within named edits := by
  constructor
  · intro w member
    rcases List.mem_append.mp member with leaves | stays
    · obtain ⟨leaves, change⟩ := mem_detach_plan.mp leaves
      refine ⟨known _ (.inr leaves), fun key value given => ?_⟩
      rw [change] at given
      cases given
    · refine ⟨known _ (.inl (posed.proposed stays)), fun key value written => ?_⟩
      rw [(values_of_write stays).1] at written
      split at written
      next targeted => exact given _ targeted key value written
      next => cases written
  · exact fun case listed => ⟨known case listed, fun key value written => by cases written⟩

end Within

-----------------------------------------------------------------------------------------
-- Rounds of all kinds
-----------------------------------------------------------------------------------------

namespace Coordinator

variable {k : Coordinator} {s : Stores} {request : RoundRequest}

/-- A reconciliation is about cases that its request names, and brings the values of the request to
the cases that it has found.
-/
theorem Prepares.within_reconciliation {r : Reconciliation}
    (prepares : k.Prepares s request (.reconcile r))
    : (Work.reconcile r).Sends (CaseWrite.Within (request.Names s) request.Edits) := by
  cases prepares with
  | creation _ _ _ =>
      have posed := Reconciliation.wellPosed_ofCreation
      refine (posed _ _ _ _).within ?_ fun _ targeted => nomatch targeted
      rintro case (proposed | leaves)
      · rcases mem_proposed_creationDelta.mp proposed with member | eligible
        · exact .inl member
        · have asked := mem_orderedUnion.mp (Joiners.candidate_of_eligible eligible)
          exact .inr (asked.imp_right .inl)
      · rw [show Reconciliation.delta _ = creationDelta _ _ from rfl, toDetach_creationDelta]
          at leaves
        cases leaves
  | inPlace _ _ _ _ =>
      have posed := Reconciliation.wellPosed_ofUpdate
      refine (posed _ _ _ _).within ?_ fun case targeted key value given => ⟨targeted, given⟩
      rintro case (proposed | leaves)
      · have asked := (Reconciliation.mem_proposed_ofUpdate.mp proposed).1
        exact .inr (asked.imp_right .inl)
      · exact .inl ((posed _ _ _ _).splits.mem_toDetach.mp leaves).1

/-- So is a movement, and about the members of its target. -/
theorem Prepares.within_movement {m : Movement} (prepares : k.Prepares s request (.move m))
    (filed : s.multiples.Filed)
    : (Work.move m).Sends (CaseWrite.Within (request.Names s) request.Edits) := by
  cases request with
  | create request => cases prepares
  | update request =>
      have prepared := prepares.movement filed
      obtain ⟨targeted, _⟩ := prepares.targeting
      have listed : ∀ case ∈ m.source.multiple.memberReferences,
          (RoundRequest.update request).Names s case := by
        rw [prepared.carried]
        exact fun case member => .inl member
      have present : ∀ case ∈ m.target.multiple.memberReferences,
          (RoundRequest.update request).Names s case := fun case member =>
        .inr (.inr (.inr ⟨_, prepared.named,
          Stores.membersOf_of_get? prepared.stored ▸ member⟩))
      have target : m.target.Within ((RoundRequest.update request).Names s)
          (RoundRequest.update request).Edits := by
        refine prepared.target.within (fun case known => ?_) fun case moves key value given => ?_
        · rcases known with proposed | leaves
          · rcases (prepared.mem_proposed case).mp proposed with member | moves
            · exact present case member
            · exact listed case (prepared.source.splits.mem_toDetach.mp moves).1
          · exact present case (prepared.target.splits.mem_toDetach.mp leaves).1
        · rw [prepared.targetEdits] at given
          exact ⟨(prepares.leaves.mp ((targeted case).mp moves)).1, given⟩
      have source : m.source.Within ((RoundRequest.update request).Names s)
          (RoundRequest.update request).Edits := by
        refine prepared.source.within (fun case known => ?_) fun case _ key value given => ?_
        · rcases known with proposed | leaves
          · exact listed case (prepared.member_of_proposed_source proposed)
          · exact listed case (prepared.source.splits.mem_toDetach.mp leaves).1
        · rw [prepared.sourceEdits] at given
          cases given
      exact ⟨target.1, fun w member => source.1 w (List.mem_append_right _ member), target.2,
        source.2⟩

theorem Prepares.within {work : Work} (prepares : k.Prepares s request work)
    (filed : s.multiples.Filed)
    : work.Sends (CaseWrite.Within (request.Names s) request.Edits) := by
  cases work with
  | reconcile r => exact prepares.within_reconciliation
  | move m => exact prepares.within_movement filed

/-- A case that is stored stays stored, and is touched at most as the request has it. -/
theorem carryOut_touches (k : Coordinator) (request : RoundRequest) (filed : s.multiples.Filed)
    {case : CaseReference} {c : SingleCase} (stored : s.cases.records.get? case = some c)
    : ((k.carryOut request).runOn s).2.cases.Holds case
        (Touched (request.Names s case) (request.Edits case) c) := by
  refine (CaseStore.holds_outlasts case _).carryOut (fun _ _ _ _ holds => holds) ?_ ?_
  · intro t asked
    refine ⟨c, ?_, .refl _ _ c⟩
    rw [asked.cases]
    exact stored
  · exact fun work prepares => (prepares.within filed).mono fun w within => within.leaves case c

/-- A round neither stores a case that was not stored nor removes one. -/
theorem carryOut_stored (k : Coordinator) (request : RoundRequest) (s : Stores)
    (case : CaseReference)
    : (((k.carryOut request).runOn s).2.cases.records.get? case).isSome
      = (s.cases.records.get? case).isSome := by
  have kept : Kept fun t =>
      (t.cases.records.get? case).isSome = (s.cases.records.get? case).isSome :=
    { asked := fun same asked => by rw [asked.cases, same]
      wrote := fun same wrote => (wrote.stored case).trans same
      commit := fun _ _ _ _ same => same
      enqueue := fun _ _ same => same }
  exact kept.carryOut request rfl

/-- A movement starts from the multiple that the request is about. -/
theorem Prepares.subject_movement {m : Movement} (prepares : k.Prepares s request (.move m))
    : request.subject? s = some m.source.reference := by
  cases prepares with
  | move _ own _ _ _ _ _ => exact own

/-- A commit leaves the records of other multiples alone. -/
theorem commit_spares {r : Reconciliation} {q : MultipleReference} {record : Option Multiple}
    (own : r.multiple.reference = some r.reference) (other : q ≠ r.reference)
    (members : List Member)
    : (k.commit r members).Keeps fun s =>
        s.multiples.hooks = [] ∧ s.multiples.records.get? q = record := by
  refine Round.keeps_multiples fun s ⟨hooks, found⟩ => ?_
  change (s.multiples.commit (r.record members) r.expected).2.hooks = []
    ∧ (s.multiples.commit (r.record members) r.expected).2.records.get? q = record
  rw [MultipleStore.commit_eq_compareAndSwap hooks]
  cases swap : s.multiples.compareAndSwap (r.record members) r.expected with
  | mk answer after =>
      cases answer with
      | error e =>
          obtain ⟨records, same⟩ := MultipleStore.compareAndSwap_eq_error swap
          exact ⟨same.trans hooks, by rw [records, found]⟩
      | ok committed =>
          obtain ⟨p, named, _, _, rfl⟩ := MultipleStore.compareAndSwap_eq_ok swap
          obtain rfl : r.reference = p := Option.some.inj (own.symm.trans named)
          exact ⟨hooks, (Register.get?_insert_of_ne _ _ other).trans found⟩

/-- A round replaces no record but that of its own multiple and that of its target. -/
theorem carryOut_spares_records (k : Coordinator) (request : RoundRequest)
    (inMemory : s.InMemory) {q : MultipleReference} (subject : request.subject? s ≠ some q)
    (target : request.target? ≠ some q)
    : ((k.carryOut request).runOn s).2.multiples.records.get? q
      = s.multiples.records.get? q := by
  have outlasts : Outlasts (fun _ => True) fun t =>
      t.multiples.hooks = [] ∧ t.multiples.records.get? q = s.multiples.records.get? q :=
    { submit := fun _ _ _ _ same => same
      passTime := fun _ _ same => same
      enqueue := fun _ _ same => same }
  refine (outlasts.carryOut_of_commits (fun t asked => ?_)
    (fun work prepares => (prepares.within inMemory.filed).mono fun _ _ => trivial)
    (fun work prepares => ?_)).2
  · exact ⟨asked.hooks.trans inMemory.hooks, by rw [asked.multiples]⟩
  · cases work with
    | reconcile r =>
        have prepared := prepares.reconciliation inMemory.keyed inMemory.unset
        exact commit_spares prepared.reference fun same =>
          subject (prepares.subject.trans (congrArg some same.symm))
    | move m =>
        have prepared := prepares.movement inMemory.filed
        refine ⟨commit_spares prepared.targetOwn fun same => ?_,
          commit_spares prepared.own fun same => ?_⟩
        · exact target (prepared.named.trans (congrArg some same.symm))
        · exact subject (prepares.subject_movement.trans (congrArg some same.symm))

/-- A round of any kind, in either mode and however it ends, touches only what its request names. No
case is stored or removed. A case that is not named is unchanged; the others keep their references
and their status, and a field only takes a value that the request has for it, and only in a case
that an update has found. Of the records only the one of its own multiple and that of its target
can have changed.
-/
theorem carryOut_frame (k : Coordinator) (request : RoundRequest) (inMemory : s.InMemory)
    : (∀ case,
        (((k.carryOut request).runOn s).2.cases.records.get? case).isSome
        = (s.cases.records.get? case).isSome)
      ∧ (∀ case c,
          s.cases.records.get? case = some c
          → ((k.carryOut request).runOn s).2.cases.Holds case
              (Touched (request.Names s case) (request.Edits case) c))
      ∧ ∀ q,
          request.subject? s ≠ some q
          → request.target? ≠ some q
          → ((k.carryOut request).runOn s).2.multiples.records.get? q
            = s.multiples.records.get? q :=
  ⟨k.carryOut_stored request s,
    fun _ _ stored => k.carryOut_touches request inMemory.filed stored,
    fun _ subject target => k.carryOut_spares_records request inMemory subject target⟩

end Coordinator

namespace Sample

/-- Stores on which the next commit is refused. -/
def refusing : Stores :=
  { stores [] with
    multiples := { (stores []).multiples with commitFault := some .missingReference } }

/-- A creation that fails when it commits has left the case that it does not name as it was, and the
record of the other multiple.
-/
theorem framed_of_refusal
    : ∃ e t,
        (coordinator.carryOut creating).Fails refusing e t
        ∧ t.cases.Holds two (· = { reference := two })
        ∧ t.multiples.records.get? group = some record := by
  have inMemory := (reachable_stores []).inMemory
  have refused : ∃ e t, (coordinator.carryOut creating).Fails refusing e t := ⟨_, _, rfl⟩
  obtain ⟨e, t, fails⟩ := refused
  obtain ⟨_, touches, spares⟩ := coordinator.carryOut_frame (s := refusing) creating
    ⟨inMemory.keyed, inMemory.filed, inMemory.unset, inMemory.hooks⟩
  have unnamed : ¬ creating.Names refusing two := by
    rintro (member | requested | matched | ⟨_, moves, _⟩)
    · cases member
    · revert requested
      decide
    · cases matched
    · cases moves
  rw [show (coordinator.carryOut creating).runOn refusing = (.error e, t) from fails]
    at touches spares
  obtain ⟨c, stored, touched⟩ := touches two { reference := two } rfl
  exact ⟨e, t, fails, ⟨c, stored, touched.unnamed unnamed⟩, spares group (by decide) (by decide)⟩

end Sample

end CaseGrouping
