import CaseGrouping.Proofs.Agreement.Sides
import CaseGrouping.Proofs.Round.Preparation
import CaseGrouping.Proofs.Round.Outlasting
import CaseGrouping.Proofs.Round.Reachable

/-! Cases of other multiples. A round without a target takes no case away from a multiple that it is
not about, whatever members its request lists and however it ends.
-/

namespace CaseGrouping

-----------------------------------------------------------------------------------------
-- Properties of one stored case
-----------------------------------------------------------------------------------------

/-- (s.Holds case Q) says that the case is stored and has the property Q. -/
def CaseStore.Holds (s : CaseStore) (case : CaseReference) (Q : SingleCase → Prop) : Prop :=
  ∃ c, s.records.get? case = some c ∧ Q c

/-- (w.Leaves case Q) says that the write is to another case, or leaves the property Q true. -/
def CaseWrite.Leaves (case : CaseReference) (Q : SingleCase → Prop) (w : CaseWrite) : Prop :=
  w.case = case → ∀ c, Q c → Q (w.change.apply c)

/-- A write changes its case at most, and then by its change. -/
theorem CaseStore.Submitted.holds {s s' : CaseStore} {w : CaseWrite} {reply : WriteReply}
    {case : CaseReference} {Q : SingleCase → Prop} (submitted : s.Submitted w reply s')
    (leaves : w.Leaves case Q) (holds : s.Holds case Q)
    : s'.Holds case Q := by
  obtain ⟨c, stored, property⟩ := holds
  cases submitted with
  | crash _ => exact ⟨c, stored, property⟩
  | fault _ _ => exact ⟨c, stored, property⟩
  | absent _ _ _ => exact ⟨c, stored, property⟩
  | written _ _ found =>
      by_cases same : w.case = case
      · subst same
        cases Option.some.inj (found.symm.trans stored)
        exact ⟨_, Register.get?_insert_self _ _ _, leaves rfl c property⟩
      · refine ⟨c, ?_, property⟩
        exact (Register.get?_insert_of_ne _ _ fun eq => same eq.symm).trans stored

/-- A property of one case outlasts the writes that leave it true. -/
theorem CaseStore.holds_outlasts (case : CaseReference) (Q : SingleCase → Prop)
    : Outlasts (CaseWrite.Leaves case Q) fun s => s.cases.Holds case Q where
  submit := fun _ w s leaves holds => (CaseStore.submit_submitted s.cases w).holds leaves holds
  passTime := fun _ _ holds => holds
  enqueue := fun _ _ holds => holds

-----------------------------------------------------------------------------------------
-- Cases that stay where they are
-----------------------------------------------------------------------------------------

/-- (StaysWith q listed before now) says that a case belongs to the multiple q now, and unless it is
listed is just as it was before.
-/
structure StaysWith (q : MultipleReference) (listed : Prop) (before now : SingleCase)
    : Prop where
  multiple : now.multiple = some q
  unchanged : ¬ listed → now = before

section Stays

variable {q : MultipleReference} {listed : Prop} {before now : SingleCase}

/-- A listed case may be written to, as long as its membership is kept. -/
theorem StaysWith.keep (stays : StaysWith q listed before now) (known : listed)
    {change : ChangeSet} (kept : change.membership = .keep)
    : StaysWith q listed before (change.apply now) := by
  refine ⟨?_, fun absent => absurd known absent⟩
  rw [ChangeSet.apply_multiple, kept]
  exact stays.multiple

/-- A case that belongs elsewhere does not leave. -/
theorem StaysWith.detach (stays : StaysWith q listed before now) {multiple : MultipleReference}
    (other : q ≠ multiple)
    : StaysWith q listed before ((ChangeSet.detach multiple).apply now) := by
  have elsewhere : now.multiple ≠ some multiple := by
    rw [stays.multiple]
    exact fun same => other (Option.some.inj same)
  have same : (ChangeSet.detach multiple).apply now = now := by
    simp [ChangeSet.apply, ChangeSet.detach, elsewhere]
  rw [same]
  exact stays

end Stays

namespace Reconciliation

variable {r : Reconciliation} {case : CaseReference} {q : MultipleReference} {c : SingleCase}

/-- A reconciliation leaves a case of another multiple there, unless it has the case join: it leaves
alone whoever is to leave from elsewhere, and changes the membership of nobody who stays.
-/
theorem WellPosed.sends_staysWith (posed : r.WellPosed) (other : q ≠ r.reference)
    (absent : case ∉ r.delta.toAttach)
    : (Work.reconcile r).Sends
        (CaseWrite.Leaves case (StaysWith q (case ∈ r.multiple.memberReferences) c)) := by
  constructor
  · rintro w member rfl now stays
    rcases List.mem_append.mp member with leaves | kept
    · rw [(mem_detach_plan.mp leaves).2]
      exact stays.detach other
    · have listed := (posed.stays (posed.proposed kept) absent).2
      exact stays.keep listed (membership_of_stays kept absent)
  · rintro _ candidate rfl now stays
    refine stays.keep ?_ rfl
    rcases candidate with proposed | leaves
    · exact (posed.stays proposed absent).2
    · exact (posed.splits.mem_toDetach.mp leaves).1

/-- A prepared reconciliation has nobody join who belongs elsewhere. -/
theorem Prepared.absent {request : RoundRequest} {s : Stores} (prepared : r.Prepared request s)
    (stored : s.cases.records.get? case = some c) (belongs : c.multiple = some q)
    (other : q ≠ r.reference)
    : case ∉ r.delta.toAttach := by
  intro joins
  obtain ⟨d, found, free⟩ := prepared.joining case joins
  cases Option.some.inj (stored.symm.trans found)
  rcases free with none | own
  · exact absurd (belongs.symm.trans none) (by simp)
  · exact other (Option.some.inj (belongs.symm.trans own))

end Reconciliation

-----------------------------------------------------------------------------------------
-- Rounds without a target
-----------------------------------------------------------------------------------------

/-- The multiple that a request is about. For a creation without a reference it is the one that is
allocated next.
-/
def RoundRequest.subject? (s : Stores) : RoundRequest → Option MultipleReference
  | .create request => request.multiple.reference <|> s.multiples.allocate.1.toOption
  | .update request => request.multiple.reference

namespace Coordinator

variable {k : Coordinator} {s : Stores} {request : RoundRequest}

/-- A creation round is assigned the reference of the multiple that its request is about. -/
theorem Assigned.subject {request : BulkCreation} {reference : MultipleReference}
    {expected : Option UInt64} (assigned : Assigned s request.multiple reference expected)
    : (RoundRequest.create request).subject? s = some reference := by
  cases assigned with
  | named own => simp [RoundRequest.subject?, own]
  | fresh absent allocated => simp [RoundRequest.subject?, absent, allocated, Except.toOption]

/-- A reconciliation is of the multiple that the request is about. -/
theorem Prepares.subject {r : Reconciliation} (prepares : k.Prepares s request (.reconcile r))
    : request.subject? s = some r.reference := by
  cases prepares with
  | creation _ assigned _ => exact assigned.subject
  | inPlace _ own _ _ => exact own

/-- Creation and update in place leave every case of another multiple there, and change it only if
the request lists it as a member. Requests of any content, failing writes and any end of the round
are included.
-/
theorem carryOut_spares_others (k : Coordinator) (keyed : s.cases.Keyed)
    (unset : s.cases.searchAnswer = none) (inPlace : request.target? = none)
    {case : CaseReference} {c : SingleCase} {q : MultipleReference}
    (stored : s.cases.records.get? case = some c) (belongs : c.multiple = some q)
    (other : request.subject? s ≠ some q)
    : ((k.carryOut request).runOn s).2.cases.Holds case
        (StaysWith q (case ∈ request.multiple.memberReferences) c) := by
  refine (CaseStore.holds_outlasts case _).carryOut (fun _ _ _ _ holds => holds) ?_ ?_
  · intro t asked
    refine ⟨c, ?_, belongs, fun _ => rfl⟩
    rw [asked.cases]
    exact stored
  · intro work prepares
    cases work with
    | reconcile r =>
        have prepared := prepares.reconciliation keyed unset
        have elsewhere : q ≠ r.reference := by
          rintro rfl
          exact other prepares.subject
        have members : r.multiple.memberReferences = request.multiple.memberReferences := by
          rw [prepared.carried]
          rfl
        rw [← members]
        exact prepared.posed.sends_staysWith elsewhere
          (prepared.absent stored belongs elsewhere)
    | move m =>
        cases prepares with
        | move _ _ moves _ _ _ _ => exact absurd (inPlace.symm.trans moves) (by simp)

end Coordinator

namespace Sample

/-- The second case is to take the place of the first one. -/
def replacing : RoundRequest :=
  .update { multiple := listing, requested := [two] }

/-- A case that the record lists although it belongs to another multiple is not taken away there. -/
theorem spared_of_listed
    : ((coordinator.carryOut replacing).runOn (owned other)).2.cases.Holds one
        (StaysWith other (one ∈ replacing.multiple.memberReferences)
          { reference := one, multiple := some other }) := by
  have inMemory := (reachable_owned other).inMemory
  exact coordinator.carryOut_spares_others inMemory.keyed inMemory.unset rfl rfl rfl (by decide)

end Sample

end CaseGrouping
