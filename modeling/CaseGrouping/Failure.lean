import CaseGrouping.Json.Record
import CaseGrouping.Reference

/-! A single case that was left out or not written, and why. Failures are values that accompany
the outcome of a round; they do not end it.
-/

namespace CaseGrouping

/-- A case with the reason why it was left out or not written. -/
structure Failure where
  case : CaseReference
  reason : String
  deriving DecidableEq

namespace Failure

/-- The wording of a failure. -/
def message (f : Failure) : String :=
  "case " ++ f.case.text ++ " failed: " ++ f.reason

/-- The fields of the written form. -/
def record : Json.Record Failure :=
  .map (fun (case, reason) => { case, reason }) <|
    .both (.required "case_reference" Json.Form.decoder) <|
    .required "reason" Json.Decode.string

instance : Json.Form Failure where
  toValue f := .object
    [("case_reference", Json.Form.toValue f.case), ("reason", .string f.reason)]
  decoder := record.decoder

end Failure

end CaseGrouping
