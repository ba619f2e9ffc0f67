import CaseGrouping.Proofs.Round.Settlement
import CaseGrouping.Round.Creation
import CaseGrouping.Round.Update

/-! The work of a round: what is left to do once the request has been checked and all questions have
been answered. Up to there no case and no record is touched, and the mode does not matter.
-/

namespace CaseGrouping

-----------------------------------------------------------------------------------------
-- Requests
-----------------------------------------------------------------------------------------

/-- A request for a round. -/
inductive RoundRequest where
  | create (request : BulkCreation)
  | update (request : BulkUpdate)
  deriving DecidableEq

namespace RoundRequest

/-- The mode that a request asks for. -/
def mode : RoundRequest → PropagationMode
  | .create request => request.mode
  | .update request => request.mode

/-- The multiple that a request wants cases to move to. -/
def target? : RoundRequest → Option MultipleReference
  | .create _ => none
  | .update request => request.target

/-- The request with another mode. -/
def inMode (mode : PropagationMode) : RoundRequest → RoundRequest
  | .create request => .create { request with mode }
  | .update request => .update { request with mode }

/-- The multiple that a request carries. -/
def multiple : RoundRequest → Multiple
  | .create request => request.multiple
  | .update request => request.multiple

/-- The values that a request wants to be written to its matched cases. -/
def edits : RoundRequest → Fields
  | .create _ => ∅
  | .update request => request.edits

@[simp]
theorem mode_inMode (mode : PropagationMode) (request : RoundRequest)
    : (request.inMode mode).mode = mode := by
  cases request <;> rfl

end RoundRequest

namespace Coordinator

/-- Carries out a round of any kind. -/
def carryOut (k : Coordinator) : RoundRequest → Round RoundOutcome
  | .create request => k.createBulk request
  | .update request => k.updateBulk request

end Coordinator

-----------------------------------------------------------------------------------------
-- Work
-----------------------------------------------------------------------------------------

/-- The reconciliation that a creation round comes to. -/
def Reconciliation.ofCreation (request : BulkCreation) (reference : MultipleReference)
    (expected : Option UInt64) (joiners : Joiners) : Reconciliation :=
  let delta := Coordinator.creationDelta request.multiple.memberReferences joiners.eligible
  { multiple := request.multiple.withReference reference
    reference
    delta
    lead := electLead delta.proposed request.multiple.leadCase? .membershipChange
    mode := request.mode
    expected
    failures := joiners.failures }

/-- The reconciliation that an update in place comes to. -/
def Reconciliation.ofUpdate (request : BulkUpdate) (reference : MultipleReference)
    (expected : Option UInt64) (joiners : Joiners) : Reconciliation :=
  let delta :=
    Coordinator.admittedDelta request.multiple.memberReferences request joiners.failures
  { multiple := request.multiple
    reference
    delta
    lead := electLead delta.proposed request.multiple.leadCase? delta.roundKind
    targeting := ⟨request.matched, request.edits, request.subGroup⟩
    mode := request.mode
    expected
    failures := joiners.failures }

/-- The two sides of a move: cases leave the source by being attached to the target, so nothing is
written to have them leave. Strangers are matched cases that are no members of the source.
-/
structure Movement where
  target : Reconciliation
  source : Reconciliation
  strangers : List Failure

/-- The movement that an update with a target comes to. -/
def Movement.ofUpdate (request : BulkUpdate) (reference : MultipleReference)
    (expected : Option UInt64) (target : Multiple) (targetReference : MultipleReference)
    : Movement :=
  let movers := Movers.ofMatched request.multiple reference request.matched
  let remaining := request.multiple.memberReferences.filter (· ∉ movers.moving)
  let sourceDelta :=
    MembershipDelta.resolve request.multiple.memberReferences remaining []
  let targetDelta :=
    MembershipDelta.resolve target.memberReferences target.memberReferences movers.moving
  { target :=
      { multiple := target
        reference := targetReference
        delta := targetDelta
        lead := targetLead target targetDelta
        targeting := ⟨movers.moving, request.edits, request.subGroup⟩
        mode := request.mode
        expected := target.version }
    source :=
      { multiple := request.multiple
        reference
        delta := sourceDelta
        lead := electLead sourceDelta.proposed request.multiple.leadCase? .membershipChange
        mode := request.mode
        expected }
    strangers := movers.failures }

/-- What a round does in the end: it reconciles a multiple, or moves cases between two. -/
inductive Work where
  | reconcile (r : Reconciliation)
  | move (m : Movement)

/-- The work in another mode. -/
def Work.inMode (mode : PropagationMode) : Work → Work
  | .reconcile r => .reconcile { r with mode }
  | .move m => .move { m with target := { m.target with mode }, source := { m.source with mode } }

namespace Coordinator

/-- Settles the members of a reconciliation after its writes. -/
def settle (k : Coordinator) (r : Reconciliation) (written : List CaseReference)
    : Round (List Member × List Failure) :=
  k.settleMembers r.multiple r.delta r.lead r.targeting r.plan written r.mode

/-- Commits a reconciliation with its settled members. -/
def commit (k : Coordinator) (r : Reconciliation) (members : List Member) : Round Multiple :=
  k.commitMembers r.multiple members r.expected

/-- Carries out a movement: the target is written first, and both are committed in the end. -/
def move (k : Coordinator) (m : Movement) : Round RoundOutcome := do
  let toTarget ← k.propagate m.target.reference m.target.expected m.target.plan m.target.mode
  let toSource ← k.propagate m.source.reference m.source.expected
    { m.source.plan with detach := [] } m.source.mode
  let written := toTarget.written ++ toSource.written
  let (targetMembers, targetSettling) ← k.settle m.target written
  let (sourceMembers, sourceSettling) ← k.settle m.source written
  let committedTarget ← k.commit m.target targetMembers
  let committedSource ← k.commit m.source sourceMembers
  return {
    multiple := committedSource
    movedTo := some committedTarget
    failures := m.strangers ++ toTarget.failures ++ toSource.failures
      ++ targetSettling ++ sourceSettling
    mode := m.source.mode
    enqueuedJobs := toTarget.acknowledgements.length + toSource.acknowledgements.length }

/-- Does the work of a round. -/
def perform (k : Coordinator) : Work → Round RoundOutcome
  | .reconcile r => k.reconcile r
  | .move m => k.move m

/-- Checks a creation request and finds out who may join. -/
def prepareCreation (k : Coordinator) (request : BulkCreation) : Round Work := do
  Round.check request.multiple.validateIncoming
  let union := orderedUnion request.requested request.matched
  if union.isEmpty then Round.reject .emptyRequest
  else do
    let (reference, expected) ← k.assignReference request.multiple
    let joiners ← Round.attempt (Joiners.check k.scope reference union)
    if request.multiple.memberReferences.isEmpty && joiners.eligible.isEmpty then
      Round.reject (.noEligibleCases joiners.failures)
    else return .reconcile (.ofCreation request reference expected joiners)

/-- The version that the record of an update is expected to have. -/
def expectedVersion (k : Coordinator) (m : Multiple) (reference : MultipleReference)
    : Round (Option UInt64) :=
  match m.version with
  | some v => pure (some v)
  | none => do
      let stored ← Round.multiples (Stores.load k.scope reference)
      pure (stored.bind (·.version))

/-- Finds out who may join in place, or where cases move to. -/
def prepareTarget (k : Coordinator) (request : BulkUpdate) (reference : MultipleReference)
    (expected : Option UInt64) : Round Work :=
  match request.target with
  | none => do
      let wanted := MembershipDelta.resolve request.multiple.memberReferences
        request.requested request.matched
      let joiners ← Round.attempt (Joiners.check k.scope reference wanted.toAttach)
      return .reconcile (.ofUpdate request reference expected joiners)
  | some target => do
      let stored ← k.loadTarget reference target
      match stored.reference with
      | none => Round.reject .missingReference
      | some targetReference =>
          return .move (.ofUpdate request reference expected stored targetReference)

/-- Checks an update request and finds out what it amounts to. -/
def prepareUpdate (k : Coordinator) (request : BulkUpdate) : Round Work := do
  Round.check request.multiple.validateIncoming
  match request.multiple.reference with
  | none => Round.reject .missingReference
  | some reference => do
      let expected ← k.expectedVersion request.multiple reference
      k.prepareTarget request reference expected

/-- Finds out what work a request amounts to. -/
def prepare (k : Coordinator) : RoundRequest → Round Work
  | .create request => k.prepareCreation request
  | .update request => k.prepareUpdate request

theorem createBulk_eq (k : Coordinator) (request : BulkCreation)
    : k.createBulk request = k.prepareCreation request >>= k.perform := by
  simp only [createBulk, prepareCreation, bind_assoc]
  congr 1
  funext valid
  split
  · rfl
  · rw [bind_assoc]
    congr 1
    funext assigned
    rw [bind_assoc]
    congr 1
    funext joiners
    split <;> rfl

/-- The part of an update round that depends on its target, likewise. -/
theorem prepareTarget_bind (k : Coordinator) (request : BulkUpdate)
    (reference : MultipleReference) (expected : Option UInt64)
    : (match request.target with
        | none => k.updateInPlace request reference expected
        | some target => k.loadTarget reference target >>= fun stored =>
            match stored.reference with
            | none => Round.reject .missingReference
            | some targetReference =>
                k.moveCases request reference expected stored targetReference)
      = k.prepareTarget request reference expected >>= k.perform := by
  unfold prepareTarget
  split
  · rw [bind_assoc]
    rfl
  · rw [bind_assoc]
    congr 1
    funext stored
    cases stored.reference <;> rfl

theorem updateBulk_eq (k : Coordinator) (request : BulkUpdate)
    : k.updateBulk request = k.prepareUpdate request >>= k.perform := by
  simp only [updateBulk, prepareUpdate, bind_assoc]
  congr 1
  funext valid
  cases request.multiple.reference with
  | none => rfl
  | some reference =>
      dsimp only
      rw [bind_assoc, expectedVersion]
      simp only [← prepareTarget_bind]
      cases request.multiple.version with
      | some v => rfl
      | none =>
          dsimp only
          exact (bind_assoc _ _ _).symm

/-- Every round is its questions followed by its work. -/
theorem carryOut_eq (k : Coordinator) (request : RoundRequest)
    : k.carryOut request = k.prepare request >>= k.perform := by
  cases request with
  | create request => exact k.createBulk_eq request
  | update request => exact k.updateBulk_eq request

end Coordinator

end CaseGrouping
