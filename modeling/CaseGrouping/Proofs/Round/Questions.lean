import CaseGrouping.Proofs.Round.Joining
import CaseGrouping.Proofs.Round.Runs
import CaseGrouping.Proofs.Round.Work

/-! The questions of a round. Asking them changes no record, and the work that a request comes to is
told by the request and the answers, whatever the stores hold.
-/

namespace CaseGrouping

namespace Coordinator

-----------------------------------------------------------------------------------------
-- Asking
-----------------------------------------------------------------------------------------

section Asking

open Round

variable (k : Coordinator) {s : Stores}

theorem load_keeps_asked (scope : CaseScope) (reference : MultipleReference)
    : (multiples (Stores.load scope reference)).Keeps s.Asked :=
  keeps_multiples fun t asked => asked.trans (.load scope reference t)

theorem check_keeps_asked (scope : CaseScope) (reference : MultipleReference)
    (candidates : List CaseReference)
    : (attempt (Joiners.check scope reference candidates)).Keeps s.Asked :=
  keeps_attempt fun t asked => asked.trans (Joiners.check_asked scope reference candidates t)

theorem assignReference_keeps_asked (m : Multiple) : (k.assignReference m).Keeps s.Asked := by
  unfold assignReference
  split
  · exact keeps_bind (keeps_multiples fun t asked => asked.trans (.allocate k.scope t))
      fun _ => keeps_pure _
  · exact keeps_bind (load_keeps_asked _ _) fun _ => keeps_pure _

theorem prepareCreation_keeps_asked (request : BulkCreation)
    : (k.prepareCreation request).Keeps s.Asked := by
  refine keeps_bind (keeps_check _) fun _ => keeps_ite (keeps_reject _) ?_
  refine keeps_bind (k.assignReference_keeps_asked _) fun assigned => ?_
  refine keeps_bind (check_keeps_asked _ _ _) fun joiners => ?_
  exact keeps_ite (keeps_reject _) (keeps_pure _)

theorem expectedVersion_keeps_asked (m : Multiple) (reference : MultipleReference)
    : (k.expectedVersion m reference).Keeps s.Asked := by
  unfold expectedVersion
  split
  · exact keeps_pure _
  · exact keeps_bind (load_keeps_asked _ _) fun _ => keeps_pure _

theorem loadTarget_keeps_asked (current target : MultipleReference)
    : (k.loadTarget current target).Keeps s.Asked := by
  unfold loadTarget
  dsimp only
  split
  · exact fun _ asked => asked
  · refine keeps_bind (load_keeps_asked _ _) fun stored => ?_
    split
    · exact keeps_reject _
    · exact keeps_bind (keeps_check _) fun _ => keeps_pure _

theorem prepareTarget_keeps_asked (request : BulkUpdate) (reference : MultipleReference)
    (expected : Option UInt64)
    : (k.prepareTarget request reference expected).Keeps s.Asked := by
  unfold prepareTarget
  split
  · exact keeps_bind (check_keeps_asked _ _ _) fun _ => keeps_pure _
  · refine keeps_bind (k.loadTarget_keeps_asked _ _) fun stored => ?_
    split
    · exact keeps_reject _
    · exact keeps_pure _

theorem prepareUpdate_keeps_asked (request : BulkUpdate)
    : (k.prepareUpdate request).Keeps s.Asked := by
  refine keeps_bind (keeps_check _) fun _ => ?_
  split
  · exact keeps_reject _
  · exact keeps_bind (k.expectedVersion_keeps_asked _ _) fun _ =>
      k.prepareTarget_keeps_asked _ _ _

/-- Preparation only asks, also when it ends the round. -/
theorem prepare_asked (request : RoundRequest) (s : Stores)
    : s.Asked ((k.prepare request).runOn s).2 := by
  cases request with
  | create request => exact k.prepareCreation_keeps_asked request (.refl s)
  | update request => exact k.prepareUpdate_keeps_asked request (.refl s)

end Asking

-----------------------------------------------------------------------------------------
-- The answers
-----------------------------------------------------------------------------------------

variable {k : Coordinator} {s t : Stores}

/-- (Assigned s m reference expected) says that a creation round for the multiple m is about the
reference and expects the version: both are those of m, as far as it has them, and a reference that
is missing is allocated.
-/
inductive Assigned (s : Stores) (m : Multiple) : MultipleReference → Option UInt64 → Prop where
  | named {reference} (own : m.reference = some reference)
    : Assigned s m reference (m.version <|> s.multiples.version? reference)
  | fresh {reference} (absent : m.reference = none)
    (allocated : s.multiples.allocate.1 = .ok reference)
    : Assigned s m reference none

theorem assignReference_returns {m : Multiple} {reference : MultipleReference}
    {expected : Option UInt64}
    (returns : (k.assignReference m).Returns s (reference, expected) t)
    : Assigned s m reference expected := by
  unfold assignReference at returns
  split at returns
  next absent =>
    obtain ⟨r, u, allocated, ends⟩ := Round.returns_bind.mp returns
    obtain ⟨result, rfl⟩ := Round.returns_pure.mp ends
    cases result
    exact .fresh absent (congrArg Prod.fst (Round.returns_multiples.mp allocated))
  next r own =>
    obtain ⟨stored, u, loaded, ends⟩ := Round.returns_bind.mp returns
    obtain ⟨result, rfl⟩ := Round.returns_pure.mp ends
    cases result
    rw [Stores.load_eq_ok (Round.returns_multiples.mp loaded)]
    exact .named own

/-- An update without a version expects the stored one. -/
theorem expectedVersion_returns {m : Multiple} {reference : MultipleReference}
    {expected : Option UInt64}
    (returns : (k.expectedVersion m reference).Returns s expected t)
    : expected = (m.version <|> s.multiples.version? reference) := by
  unfold expectedVersion at returns
  split at returns
  next v version =>
    obtain ⟨rfl, _⟩ := Round.returns_pure.mp returns
    rw [version]
    rfl
  next version =>
    obtain ⟨stored, u, loaded, ends⟩ := Round.returns_bind.mp returns
    obtain ⟨rfl, _⟩ := Round.returns_pure.mp ends
    rw [version, Stores.load_eq_ok (Round.returns_multiples.mp loaded)]
    rfl

/-- The target of a move is another stored multiple that passes the checks. -/
theorem loadTarget_returns {current target : MultipleReference} {stored : Multiple}
    (returns : (k.loadTarget current target).Returns s stored t)
    : target ≠ current ∧ s.multiples.records.get? target = some stored
      ∧ stored.validateIncoming = .ok () := by
  unfold loadTarget at returns
  dsimp only at returns
  split at returns
  · obtain ⟨_, _, rejected, _⟩ := Round.returns_bind.mp returns
    exact absurd rejected Round.not_returns_reject
  next other =>
    obtain ⟨found, u, loaded, returns⟩ := Round.returns_bind.mp returns
    have loaded := Round.returns_multiples.mp loaded
    cases found with
    | none => exact absurd returns Round.not_returns_reject
    | some m =>
        obtain ⟨_, v, checked, ends⟩ := Round.returns_bind.mp returns
        obtain ⟨valid, rfl⟩ := Round.returns_check.mp checked
        obtain ⟨rfl, rfl⟩ := Round.returns_pure.mp ends
        exact ⟨other, (Stores.load_eq_ok loaded).symm, valid⟩

-----------------------------------------------------------------------------------------
-- The work
-----------------------------------------------------------------------------------------

/-- (k.Prepares s request work) lists the work that a request can come to on the stores s, with the
checks that it has passed. Joiners are checked on stores u on which nothing but questions was asked.
-/
inductive Prepares (k : Coordinator) (s : Stores) : RoundRequest → Work → Prop where
  | creation {request : BulkCreation} {reference expected u}
    (valid : request.multiple.validateIncoming = .ok ())
    (assigned : Assigned s request.multiple reference expected) (asked : s.Asked u)
    : k.Prepares s (.create request)
        (.reconcile (.ofCreation request reference expected
          (Joiners.check k.scope reference
            (orderedUnion request.requested request.matched) u).1))
  | inPlace {request : BulkUpdate} {reference u}
    (valid : request.multiple.validateIncoming = .ok ())
    (own : request.multiple.reference = some reference) (stays : request.target = none)
    (asked : s.Asked u)
    : k.Prepares s (.update request)
        (.reconcile (.ofUpdate request reference
          (request.multiple.version <|> s.multiples.version? reference)
          (Joiners.check k.scope reference
            (MembershipDelta.resolve request.multiple.memberReferences request.requested
              request.matched).toAttach u).1))
  | move {request : BulkUpdate} {reference target targetReference stored}
    (valid : request.multiple.validateIncoming = .ok ())
    (own : request.multiple.reference = some reference) (moves : request.target = some target)
    (apart : target ≠ reference) (found : s.multiples.records.get? target = some stored)
    (targetValid : stored.validateIncoming = .ok ())
    (targetOwn : stored.reference = some targetReference)
    : k.Prepares s (.update request)
        (.move (.ofUpdate request reference
          (request.multiple.version <|> s.multiples.version? reference) stored targetReference))

theorem prepareCreation_returns {request : BulkCreation} {work : Work}
    (returns : (k.prepareCreation request).Returns s work t)
    : k.Prepares s (.create request) work := by
  obtain ⟨_, u, checked, questions⟩ := Round.returns_bind.mp returns
  obtain ⟨valid, rfl⟩ := Round.returns_check.mp checked
  dsimp only at questions
  split at questions
  · exact absurd questions Round.not_returns_reject
  obtain ⟨⟨reference, expected⟩, v, assigned, questions⟩ := Round.returns_bind.mp questions
  have asked : u.Asked v := (k.assignReference_keeps_asked _).of_returns (.refl u) assigned
  obtain ⟨joiners, w, joined, ends⟩ := Round.returns_bind.mp questions
  obtain rfl := congrArg Prod.fst (Round.returns_attempt.mp joined)
  split at ends
  · exact absurd ends Round.not_returns_reject
  obtain ⟨rfl, rfl⟩ := Round.returns_pure.mp ends
  exact .creation valid (assignReference_returns assigned) asked

theorem prepareUpdate_returns {request : BulkUpdate} {work : Work}
    (returns : (k.prepareUpdate request).Returns s work t)
    : k.Prepares s (.update request) work := by
  obtain ⟨_, u, checked, questions⟩ := Round.returns_bind.mp returns
  obtain ⟨valid, rfl⟩ := Round.returns_check.mp checked
  split at questions
  · exact absurd questions Round.not_returns_reject
  next reference own =>
    obtain ⟨expected, v, versioned, questions⟩ := Round.returns_bind.mp questions
    have asked : u.Asked v := (k.expectedVersion_keeps_asked _ _).of_returns (.refl u) versioned
    obtain rfl := expectedVersion_returns versioned
    unfold prepareTarget at questions
    split at questions
    next stays =>
      obtain ⟨joiners, w, joined, ends⟩ := Round.returns_bind.mp questions
      obtain rfl := congrArg Prod.fst (Round.returns_attempt.mp joined)
      obtain ⟨rfl, rfl⟩ := Round.returns_pure.mp ends
      exact .inPlace valid own stays asked
    next target moves =>
      obtain ⟨stored, w, loaded, ends⟩ := Round.returns_bind.mp questions
      obtain ⟨apart, found, targetValid⟩ := loadTarget_returns loaded
      rw [asked.multiples] at found
      split at ends
      · exact absurd ends Round.not_returns_reject
      next targetReference targetOwn =>
        obtain ⟨rfl, rfl⟩ := Round.returns_pure.mp ends
        exact .move valid own moves apart found targetValid targetOwn

/-- Preparation comes to work as listed, whatever the stores hold. -/
theorem prepares_of_returns {request : RoundRequest} {work : Work}
    (returns : (k.prepare request).Returns s work t)
    : k.Prepares s request work := by
  cases request with
  | create request => exact prepareCreation_returns returns
  | update request => exact prepareUpdate_returns returns

/-- A round ends after its questions, or goes on with the work that they come to. -/
theorem carryOut_cases (k : Coordinator) (request : RoundRequest) (s : Stores)
    : (∃ e t, s.Asked t ∧ (k.carryOut request).runOn s = (.error e, t))
      ∨ ∃ work t,
          s.Asked t
          ∧ k.Prepares s request work
          ∧ (k.carryOut request).runOn s = (k.perform work).runOn t := by
  have asked := k.prepare_asked request s
  rw [carryOut_eq, Round.runOn_bind]
  cases prepares : (k.prepare request).runOn s with
  | mk answer t =>
      rw [prepares] at asked
      cases answer with
      | error e => exact .inl ⟨e, t, asked, rfl⟩
      | ok work => exact .inr ⟨work, t, asked, prepares_of_returns prepares, rfl⟩

end Coordinator

end CaseGrouping
