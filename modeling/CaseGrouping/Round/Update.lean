import CaseGrouping.Round.Joining
import CaseGrouping.Round.Reconciliation

/-! Update rounds: a multiple is reconciled in place with the membership a user asks for, or some
of its members move to another multiple.
In both cases all writes are through, or taken by the queue, before a record is committed.
-/

namespace CaseGrouping

/-- A request for an update round. The matched cases get the edits and the tag; with a target
they move there, and the requested ones do not count.
-/
structure BulkUpdate where
  multiple : Multiple
  requested : List CaseReference := []
  matched : List CaseReference := []
  edits : Fields := ∅
  target : Option MultipleReference := none
  subGroup : Option String := none
  mode : PropagationMode := .synchronousFanOut
  deriving DecidableEq

/-- The kind of a round is told by whether a case joins or leaves. -/
def MembershipDelta.roundKind (d : MembershipDelta) : RoundKind :=
  if d.isMembershipChange then .membershipChange else .fieldUpdate

/-- The members that move to another multiple, and the matched cases that are no members. -/
structure Movers where
  moving : List CaseReference
  failures : List Failure

/-- Splits matched cases by whether they are members. -/
def Movers.ofMatched (m : Multiple) (reference : MultipleReference) (matched : List CaseReference)
    : Movers :=
  let (moving, strangers) := (orderedUnion matched []).partition fun r => (m.member? r).isSome
  { moving, failures := strangers.map (⟨·, "not a member of multiple " ++ reference.text⟩) }

/-- The lead of the multiple that cases move to: its own as long as it has one. -/
def targetLead (target : Multiple) (delta : MembershipDelta) : Option CaseReference :=
  match target.leadCase?.filter (· ∈ delta.proposed) with
  | some lead => some lead
  | none => electLead delta.proposed none .membershipChange

namespace Coordinator

/-- The membership that an update asks for, without those who may not join. -/
def admittedDelta (current : List CaseReference) (request : BulkUpdate) (refused : List Failure)
    : MembershipDelta :=
  let admitted (rs : List CaseReference) := rs.filter fun r => r ∉ refused.map Failure.case
  .resolve current (admitted request.requested) (admitted request.matched)

/-- Reconciles a multiple in place. -/
def updateInPlace (k : Coordinator) (request : BulkUpdate) (reference : MultipleReference)
    (expected : Option UInt64) : Round RoundOutcome := do
  let current := request.multiple.memberReferences
  let wanted := MembershipDelta.resolve current request.requested request.matched
  let joiners ← Round.attempt (Joiners.check k.scope reference wanted.toAttach)
  let delta := admittedDelta current request joiners.failures
  k.reconcile {
    multiple := request.multiple
    reference
    delta
    lead := electLead delta.proposed request.multiple.leadCase? delta.roundKind
    targeting := ⟨request.matched, request.edits, request.subGroup⟩
    mode := request.mode
    expected
    failures := joiners.failures }

/-- Loads the multiple that cases move to, which must be another one that is stored. -/
def loadTarget (k : Coordinator) (current target : MultipleReference) : Round Multiple := do
  let invalid := ValidationError.invalidTargetReference target.text current.text
  if target = current then Round.reject invalid
  match ← Round.multiples (Stores.load k.scope target) with
  | none => Round.reject invalid
  | some stored =>
      Round.check stored.validateIncoming
      return stored

/-- Moves the matched members to another multiple. They leave without a write of their own: a
moved case is gone once it is attached to the target.
-/
def moveCases (k : Coordinator) (request : BulkUpdate) (reference : MultipleReference)
    (expected : Option UInt64) (target : Multiple) (targetReference : MultipleReference)
    : Round RoundOutcome := do
  let source := request.multiple
  let movers := Movers.ofMatched source reference request.matched
  -- The source: its writes only concern the cases that stay.
  let remaining := source.memberReferences.filter (· ∉ movers.moving)
  let sourceDelta := MembershipDelta.resolve source.memberReferences remaining []
  let sourceLead := electLead sourceDelta.proposed source.leadCase? .membershipChange
  let sourcePlan := PropagationPlan.reconciling reference source sourceDelta sourceLead {}
  -- The target: its members stay and the movers join, with the values and the tag.
  let targetDelta :=
    MembershipDelta.resolve target.memberReferences target.memberReferences movers.moving
  let targetLead := targetLead target targetDelta
  let targeting : Targeting := ⟨movers.moving, request.edits, request.subGroup⟩
  let targetPlan :=
    PropagationPlan.reconciling targetReference target targetDelta targetLead targeting
  -- Joining comes first: whoever could not join has not left, and stays a member of the source.
  let toTarget ← k.propagate targetReference target.version targetPlan request.mode
  let toSource ← k.propagate reference expected { sourcePlan with detach := [] } request.mode
  let written := toTarget.written ++ toSource.written
  let (targetMembers, targetSettling) ←
    k.settleMembers target targetDelta targetLead targeting targetPlan written request.mode
  let (sourceMembers, sourceSettling) ←
    k.settleMembers source sourceDelta sourceLead {} sourcePlan written request.mode
  let committedTarget ← k.commitMembers target targetMembers target.version
  let committedSource ← k.commitMembers source sourceMembers expected
  return {
    multiple := committedSource
    movedTo := some committedTarget
    failures := movers.failures ++ toTarget.failures ++ toSource.failures
      ++ targetSettling ++ sourceSettling
    mode := request.mode
    enqueuedJobs := toTarget.acknowledgements.length + toSource.acknowledgements.length }

/-- Carries out an update round. A request without a version is for the stored one. -/
def updateBulk (k : Coordinator) (request : BulkUpdate) : Round RoundOutcome := do
  Round.check request.multiple.validateIncoming
  match request.multiple.reference with
  | none => Round.reject .missingReference
  | some reference =>
      let expected ← match request.multiple.version with
        | some v => pure (some v)
        | none => do
            let stored ← Round.multiples (Stores.load k.scope reference)
            pure (stored.bind (·.version))
      match request.target with
      | none => k.updateInPlace request reference expected
      | some target =>
          let stored ← k.loadTarget reference target
          match stored.reference with
          | none => Round.reject .missingReference
          | some targetReference =>
              k.moveCases request reference expected stored targetReference

end Coordinator

end CaseGrouping
