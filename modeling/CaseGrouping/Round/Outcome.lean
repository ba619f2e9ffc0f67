import CaseGrouping.Multiple
import CaseGrouping.PropagationMode
import CaseGrouping.Json.Record

/-! What comes of a round that was committed.
-/

namespace CaseGrouping

/-- Whether all writes of a round went through. -/
inductive RoundStatus where
  | complete
  | partialFailure (failed : Nat)
  deriving DecidableEq, Repr

namespace RoundStatus

/-- The fields of the written form, without the tag. -/
def record? : String → Option (Json.Record RoundStatus)
  | "complete" => some (.constant .complete)
  | "partial" => some <| .map partialFailure <| .required "failed" Json.Decode.natural
  | _ => none

/-- The entries of the written form. -/
def entries : RoundStatus → List (String × Json.Value)
  | .complete => [("status", .string "complete")]
  | .partialFailure failed => [("status", .string "partial"), ("failed", .natural failed)]

instance : Json.Form RoundStatus where
  toValue s := .object s.entries
  decoder := Json.Record.tagged "status" record?

end RoundStatus

/-- The records as they were committed, the second one if cases were moved into it, and what did
not go through.
-/
structure RoundOutcome where
  multiple : Multiple
  movedTo : Option Multiple := none
  failures : List Failure := []
  mode : PropagationMode
  enqueuedJobs : Nat := 0

/-- Failures make an outcome partial. -/
def RoundOutcome.status (o : RoundOutcome) : RoundStatus :=
  if o.failures.isEmpty then .complete else .partialFailure o.failures.length

end CaseGrouping
