import CaseGrouping.Proofs.Membership.Accounting
import CaseGrouping.Proofs.Ownership.Frame

/-! The members that a new multiple lists from the start. A creation round attaches the cases that
it has checked. The members that its request lists become members of the record without a check, and
stay with whatever multiple they belong to, or with none.
-/

namespace CaseGrouping

-----------------------------------------------------------------------------------------
-- Listed members
-----------------------------------------------------------------------------------------

/-- While nobody leaves, the writes of a reconciliation change the multiple of those only who join.
-/
theorem Reconciliation.sends_same_multiple {r : Reconciliation} {case : CaseReference}
    (nobody : r.delta.toDetach = []) (absent : case ∉ r.delta.toAttach)
    (owner : Option MultipleReference)
    : (Work.reconcile r).Sends (CaseWrite.Leaves case fun c => c.multiple = owner) := by
  constructor
  · rintro w member rfl c belongs
    rcases List.mem_append.mp member with leaves | kept
    · have leaves := (mem_detach_plan.mp leaves).1
      rw [nobody] at leaves
      cases leaves
    · rw [ChangeSet.apply_multiple, membership_of_stays kept absent]
      exact belongs
  · rintro _ _ rfl c belongs
    exact belongs

/-- Whoever joined through the pool belongs to the multiple. -/
theorem Reconciliation.Traced.attached {r : Reconciliation} {done : Propagation}
    {members : List Member} {settling : List Failure} {s u t : Stores} {outcome : RoundOutcome}
    {case : CaseReference} (traced : r.Traced done members settling s u outcome t)
    (joins : case ∈ r.delta.toAttach) (written : case ∈ done.written)
    : t.cases.Holds case fun c => c.multiple = some r.reference := by
  have planned := List.mem_append_right r.plan.detach (attach_mem_plan joins)
  cases traced.propagated.through _ planned written with
  | applied _ stored _ =>
      refine traced.kept case _ (fun _ _ _ _ belongs => belongs) ⟨_, stored, ?_⟩
      refine (ChangeSet.apply_multiple _ _).trans ?_
      rw [Targeting.decorate_membership]
      rfl

namespace Coordinator

variable {k : Coordinator} {s t : Stores} {outcome : RoundOutcome} {request : BulkCreation}
  {case : CaseReference}

/-- A creation round does not change the multiple of a case that its request lists as a member, in
either mode and however it ends.
-/
theorem createBulk_spares_listed (k : Coordinator) (s : Stores)
    (listed : case ∈ request.multiple.memberReferences)
    : (((k.createBulk request).runOn s).2.cases.records.get? case).map SingleCase.multiple
      = (s.cases.records.get? case).map SingleCase.multiple := by
  have stored := k.carryOut_stored (.create request) s case
  change (((k.createBulk request).runOn s).2.cases.records.get? case).isSome = _ at stored
  cases found : s.cases.records.get? case with
  | none =>
      rw [found] at stored
      rw [Option.isNone_iff_eq_none.mp (Option.isSome_eq_false_iff.mp stored)]
  | some c =>
      have holds : ((k.carryOut (.create request)).runOn s).2.cases.Holds case
          fun now => now.multiple = c.multiple := by
        refine (CaseStore.holds_outlasts case _).carryOut (fun _ _ _ _ holds => holds)
          (fun t asked => ⟨c, by rw [asked.cases, found], rfl⟩) fun work prepares => ?_
        obtain ⟨reference, expected, joiners, _, rfl, _⟩ := prepares.assigned
        have posed := Reconciliation.wellPosed_ofCreation request reference expected joiners
        exact Reconciliation.sends_same_multiple (toDetach_creationDelta _ _)
          (fun joins => (posed.splits.mem_toAttach.mp joins).2 listed) _
      obtain ⟨now, after, same⟩ := holds
      change ((k.createBulk request).runOn s).2.cases.records.get? case = some now at after
      rw [after, Option.map_some, Option.map_some, same]

-----------------------------------------------------------------------------------------
-- Creation rounds
-----------------------------------------------------------------------------------------

/-- When a synchronous creation round returns, the members of its record are those that the request
lists and the other cases it names that no failure names. A member that the request did not list is
stored and belongs to the multiple. Whether a member that it lists is stored, and which multiple
that one belongs to, is as before the round.
-/
theorem createBulk_attaches_unlisted (k : Coordinator) (keyed : s.cases.Keyed)
    (mode : request.mode = .synchronousFanOut)
    (returns : (k.createBulk request).Returns s outcome t)
    : ∃ reference,
        (RoundRequest.create request).subject? s = some reference
        ∧ outcome.multiple.reference = some reference
        ∧ (∀ case ∈ request.multiple.memberReferences, case ∈ outcome.multiple.memberReferences)
        ∧ (∀ case,
            case ∈ request.requested ∨ case ∈ request.matched
            → case ∉ outcome.failures.map Failure.case
            → case ∈ outcome.multiple.memberReferences)
        ∧ ∀ case ∈ outcome.multiple.memberReferences,
            (t.cases.records.get? case).map SingleCase.multiple
            = if case ∈ request.multiple.memberReferences then
                (s.cases.records.get? case).map SingleCase.multiple
              else some (some reference) := by
  obtain ⟨reference, expected, joiners, u, assigned, reconciled, asked, eligible⟩ :=
    createBulk_assigned returns
  have posed := Reconciliation.wellPosed_ofCreation request reference expected joiners
  obtain ⟨done, members, settling, v, traced⟩ := reconciled.traced posed mode (asked.keyed keyed)
  have listed : ∀ case, case ∈ outcome.multiple.memberReferences
      ↔ case ∈ request.multiple.memberReferences
        ∨ case ∈ joiners.eligible ∧ case ∈ done.written := by
    intro case
    rw [traced.memberReferences]
    exact Reconciliation.mem_members_ofCreation
  refine ⟨reference, assigned.subject, by rw [traced.record]; rfl,
    fun case member => (listed case).mpr (.inl member), fun case named unnamed => ?_,
    fun case member => ?_⟩
  · refine traced.joined posed (mem_proposed_creationDelta.mpr (.inr ?_)) unnamed
    refine (eligible case).2 named fun failed => unnamed ?_
    rw [traced.failed, List.map_append, List.map_append]
    exact List.mem_append_left _ (List.mem_append_left _ failed)
  split
  next old =>
    rw [← k.createBulk_spares_listed s old, show (k.createBulk request).runOn s = _ from returns]
  next new =>
    obtain ⟨free, written⟩ := ((listed case).mp member).resolve_left new
    have joins := posed.splits.mem_toAttach.mpr ⟨mem_proposed_creationDelta.mpr (.inr free), new⟩
    obtain ⟨now, after, belongs⟩ := traced.attached joins written
    rw [after, Option.map_some, belongs]
    rfl

end Coordinator

namespace Sample

/-- A new multiple lists the first case as its lead, and the second one is to join. -/
def founding : BulkCreation :=
  { multiple := ({ name := "Group" } : Multiple).withMembers [{ case := one, lead := true }]
    requested := [two] }

/-- The second case belongs to the new multiple, of which the first one is a member without
belonging to it.
-/
theorem attached_of_founding
    : ∃ outcome t reference,
        (coordinator.createBulk founding).Returns (stores []) outcome t
        ∧ outcome.failures = []
        ∧ outcome.multiple.reference = some reference
        ∧ one ∈ outcome.multiple.memberReferences
        ∧ (t.cases.records.get? one).map SingleCase.multiple = some none
        ∧ two ∈ outcome.multiple.memberReferences
        ∧ (t.cases.records.get? two).map SingleCase.multiple = some (some reference) := by
  obtain ⟨outcome, t, returns, failures⟩
      : ∃ outcome t,
          (coordinator.createBulk founding).Returns (stores []) outcome t
          ∧ outcome.failures = [] :=
    Round.exists_returns (by decide +kernel)
  obtain ⟨reference, _, own, listed, joined, belong⟩ :=
    coordinator.createBulk_attaches_unlisted (reachable_stores []).inMemory.keyed rfl returns
  have first := listed one (by decide)
  have second := joined two (.inl (by decide)) (by simp [failures])
  have stays := belong one first
  have joins := belong two second
  rw [if_pos (by decide)] at stays
  rw [if_neg (by decide)] at joins
  exact ⟨outcome, t, reference, returns, failures, own, first, stays, second, joins⟩

/-- So a member of a new multiple need not belong to it, even if there was no failure. -/
theorem founding_member_unattached
    : ¬ ∀ (k : Coordinator) (s t : Stores) (request : BulkCreation) (outcome : RoundOutcome)
          (reference : MultipleReference) (case : CaseReference),
          s.Reachable
          → request.mode = .synchronousFanOut
          → request.multiple.reference = none
          → (k.createBulk request).Returns s outcome t
          → outcome.multiple.reference = some reference
          → case ∈ outcome.multiple.memberReferences
          → case ∉ outcome.failures.map Failure.case
          → t.cases.Holds case fun c => c.multiple = some reference := by
  intro claim
  obtain ⟨outcome, t, returns, told⟩
      : ∃ outcome t,
          (coordinator.createBulk founding).Returns (stores []) outcome t
          ∧ (outcome.failures, outcome.multiple.reference, outcome.multiple.memberReferences)
            = ([], some (.ofSequence 60 1), [one, two]) :=
    Round.exists_returns (by decide +kernel)
  simp only [Prod.mk.injEq] at told
  obtain ⟨failures, own, members⟩ := told
  obtain ⟨c, after, belongs⟩ := claim coordinator (stores []) t founding outcome _ one
    (reachable_stores []) rfl rfl returns own (by simp [members]) (by simp [failures])
  have listed : one ∈ founding.multiple.memberReferences := by
    decide
  have spared := coordinator.createBulk_spares_listed (stores []) listed
  rw [show (coordinator.createBulk founding).runOn (stores []) = _ from returns, after,
    Option.map_some, belongs] at spared
  exact absurd spared (by decide)

end Sample

end CaseGrouping
