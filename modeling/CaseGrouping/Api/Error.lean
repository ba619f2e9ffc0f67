import CaseGrouping.Json.Record
import CaseGrouping.Store.Error

/-! The body and the status code with which a round that ended without an outcome is answered.
-/

namespace CaseGrouping.Api

/-- A code for programs, a message for people, and what else is known. -/
structure ApiError where
  code : String
  message : String
  details : Option Json.Value := none
  deriving DecidableEq

namespace ApiError

/-- The fields of the written form. -/
def record : Json.Record ApiError :=
  .map (fun (code, message, details) => { code, message, details }) <|
    .both (.required "code" Json.Decode.string) <|
    .both (.required "message" Json.Decode.string) <|
    .elective "details" Json.Value.decoder

instance : Json.Form ApiError where
  toValue e := .object <|
    [("code", .string e.code), ("message", .string e.message)]
      ++ (e.details.map (("details", ·))).toList
  decoder := record.decoder

/-- A version, or null. -/
def versionValue (v : Option UInt64) : Json.Value :=
  .orNull (v.map fun v => .number (.natural v))

/-- What a round error tells besides its message. -/
def detailsOf : RoundError → Option Json.Value
  | .validation (.noEligibleCases failures) =>
      some (.object [("failures", .array (failures.map Json.Form.toValue))])
  | .concurrentModification reference expected actual =>
      some (.object
        [ ("actual_version", versionValue actual), ("expected_version", versionValue expected),
          ("reference", .string reference) ])
  | .queueSubmission job _ => some (.object [("job_id", Json.Form.toValue job)])
  | _ => none

/-- The code of a round error. -/
def codeOf : RoundError → String
  | .validation _ => "VALIDATION_ERROR"
  | .concurrentModification .. => "CONCURRENT_MODIFICATION"
  | .queueSubmission .. => "QUEUE_UNAVAILABLE"
  | .caseStore _ | .multipleStore _ => "STORE_UNAVAILABLE"

/-- The status code of the answer to a round error. -/
def statusOf : RoundError → Nat
  | .validation _ => 422
  | .concurrentModification .. => 409
  | .queueSubmission .. => 503
  | .caseStore _ | .multipleStore _ => 502

/-- The body of the answer to a round error. -/
def ofRoundError (e : RoundError) : ApiError where
  code := codeOf e
  message := e.message
  details := detailsOf e

end ApiError

end CaseGrouping.Api
