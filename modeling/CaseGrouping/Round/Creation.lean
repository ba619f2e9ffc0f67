import CaseGrouping.Round.Joining
import CaseGrouping.Round.Reconciliation

/-! Creation rounds: a multiple is established from cases, or cases are added to one.
-/

namespace CaseGrouping

/-- The stages of a creation round. -/
inductive CreationStage where
  | initial
  | assignReference
  | populateOrReconcileMembers
  | electLead
  | propagate
  | done
  deriving DecidableEq, Repr

namespace CreationStage

/-- The stage that follows; the last one is followed by itself. -/
def next : CreationStage → CreationStage
  | .initial => .assignReference
  | .assignReference => .populateOrReconcileMembers
  | .populateOrReconcileMembers => .electLead
  | .electLead => .propagate
  | .propagate => .done
  | .done => .done

/-- The name of a stage. -/
def name : CreationStage → String
  | .initial => "initialize"
  | .assignReference => "assign_reference"
  | .populateOrReconcileMembers => "populate_or_reconcile_members"
  | .electLead => "elect_lead"
  | .propagate => "propagate"
  | .done => "done"

end CreationStage

/-- A request for a creation round. A multiple without a reference is a new one. -/
structure BulkCreation where
  multiple : Multiple
  requested : List CaseReference := []
  matched : List CaseReference := []
  mode : PropagationMode := .synchronousFanOut
  deriving DecidableEq

namespace Coordinator

/-- The reference of the multiple, allocated if it has none, and the version that its record is
expected to have.
-/
def assignReference (k : Coordinator) (m : Multiple)
    : Round (MultipleReference × Option UInt64) :=
  match m.reference with
  | none => do return (← Round.multiples (Stores.allocate k.scope), none)
  | some r => do
      let stored ← Round.multiples (Stores.load k.scope r)
      return (r, m.version <|> stored.bind (·.version))

/-- Compares the members with those that may join: a multiple without members gets them, one
with members keeps its own as well.
-/
def creationDelta (current eligible : List CaseReference) : MembershipDelta :=
  if current.isEmpty then .resolve [] eligible [] else .resolve current current eligible

/-- Carries out a creation round. -/
def createBulk (k : Coordinator) (request : BulkCreation) : Round RoundOutcome := do
  Round.check request.multiple.validateIncoming
  let union := orderedUnion request.requested request.matched
  if union.isEmpty then Round.reject .emptyRequest
  let (reference, expected) ← k.assignReference request.multiple
  let joiners ← Round.attempt (Joiners.check k.scope reference union)
  let current := request.multiple.memberReferences
  if current.isEmpty && joiners.eligible.isEmpty then
    Round.reject (.noEligibleCases joiners.failures)
  let delta := creationDelta current joiners.eligible
  k.reconcile {
    multiple := request.multiple.withReference reference
    reference
    delta
    lead := electLead delta.proposed request.multiple.leadCase? .membershipChange
    mode := request.mode
    expected
    failures := joiners.failures }

end Coordinator

end CaseGrouping
