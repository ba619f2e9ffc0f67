import CaseGrouping.ValidationError
import CaseGrouping.Uuid

/-! What can go wrong in the stores and the queue, and how it ends a round.
-/

namespace CaseGrouping

/-- An error of the store of single cases. -/
inductive CaseStoreError where
  | transport (detail : String)
  | timeout (millis : Nat)
  | notFound (detail : String)
  | conflict (detail : String)
  | serialization (detail : String)
  deriving DecidableEq, Repr

namespace CaseStoreError

/-- The wording of a case store error. -/
def message : CaseStoreError → String
  | .transport detail => "transport error: " ++ detail
  | .timeout millis => s!"timed out after {millis}ms"
  | .notFound detail => s!"case {detail} not found"
  | .conflict detail => "write rejected: " ++ detail
  | .serialization detail => "serialization error: " ++ detail

/-- A further attempt may succeed. -/
def isRetryable : CaseStoreError → Bool
  | .transport _ | .timeout _ => true
  | _ => false

end CaseStoreError

/-- A version for messages, `None` for a record that is not there. -/
def shownVersion : Option UInt64 → String
  | none => "None"
  | some v => s!"Some({v.toNat})"

/-- The wording of a commit whose expected version was not the stored one. -/
def concurrentModificationMessage (reference : String) (expected actual : Option UInt64) : String :=
  s!"multiple {reference} was modified concurrently: expected version " ++ shownVersion expected
    ++ ", found " ++ shownVersion actual

/-- An error of the store of multiples. -/
inductive MultipleStoreError where
  | concurrentModification (reference : String) (expected actual : Option UInt64)
  | missingReference
  | transport (detail : String)
  | serialization (detail : String)
  deriving DecidableEq

namespace MultipleStoreError

/-- The wording of a multiple store error. -/
def message : MultipleStoreError → String
  | .concurrentModification reference expected actual =>
      concurrentModificationMessage reference expected actual
  | .missingReference => "multiple has no reference"
  | .transport detail => "transport error: " ++ detail
  | .serialization detail => "serialization error: " ++ detail

end MultipleStoreError

/-- An error of the queue of update jobs. -/
inductive QueueError where
  | rejected (detail : String)
  | transport (detail : String)
  | serialization (detail : String)
  deriving DecidableEq, Repr

namespace QueueError

/-- The wording of a queue error. -/
def message : QueueError → String
  | .rejected detail => "broker rejected job: " ++ detail
  | .transport detail => "transport error: " ++ detail
  | .serialization detail => "serialization error: " ++ detail

end QueueError

/-- Why a round ended without an outcome. -/
inductive RoundError where
  | validation (cause : ValidationError)
  | concurrentModification (reference : String) (expected actual : Option UInt64)
  | queueSubmission (job : Uuid) (cause : QueueError)
  | caseStore (cause : CaseStoreError)
  | multipleStore (cause : MultipleStoreError)
  deriving DecidableEq

namespace RoundError

/-- The wording of a round error. -/
def message : RoundError → String
  | .validation cause => cause.message
  | .concurrentModification reference expected actual =>
      concurrentModificationMessage reference expected actual
  | .queueSubmission job cause =>
      "failed to enqueue update job " ++ job.text ++ ": " ++ cause.message
  | .caseStore cause => "case store error: " ++ cause.message
  | .multipleStore cause => "multiple store error: " ++ cause.message

/-- How an error of the multiple store ends a round. -/
def ofMultipleStore : MultipleStoreError → RoundError
  | .concurrentModification reference expected actual =>
      .concurrentModification reference expected actual
  | .missingReference => .validation .missingReference
  | cause => .multipleStore cause

end RoundError

end CaseGrouping
