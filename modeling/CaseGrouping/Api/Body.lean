import CaseGrouping.Round.Creation
import CaseGrouping.Round.Update

/-! The bodies of the requests for rounds, and of the answers to them.
-/

namespace CaseGrouping

/-- The fields of the body of a request for a creation round. -/
def BulkCreation.record : Json.Record BulkCreation :=
  .map (fun (multiple, requested, matched, mode) => { multiple, requested, matched, mode }) <|
    .both (.required "multiple" Json.Form.decoder) <|
    .both (.defaulted "requested" (Json.Decode.list Json.Form.decoder) []) <|
    .both (.defaulted "matched" (Json.Decode.list Json.Form.decoder) []) <|
    .defaulted "mode" Json.Form.decoder .synchronousFanOut

/-- The fields of the body of a request for an update round. -/
def BulkUpdate.record : Json.Record BulkUpdate :=
  .map (fun (multiple, requested, matched, edits, target, subGroup, mode) =>
      { multiple, requested, matched, edits, target, subGroup, mode }) <|
    .both (.required "multiple" Json.Form.decoder) <|
    .both (.defaulted "requested" (Json.Decode.list Json.Form.decoder) []) <|
    .both (.defaulted "matched" (Json.Decode.list Json.Form.decoder) []) <|
    .both (.defaulted "field_edits" Json.Form.decoder ∅) <|
    .both (.elective "target_reference" Json.Form.decoder) <|
    .both (.elective "sub_group" Json.Decode.string) <|
    .defaulted "mode" Json.Form.decoder .synchronousFanOut

/-- The body of the answer to a committed round. -/
structure RoundResponse where
  status : RoundStatus
  multiple : Multiple
  movedTo : Option Multiple
  failures : List Failure
  mode : PropagationMode
  enqueuedJobs : Nat
  deriving DecidableEq

namespace RoundResponse

/-- The answer for an outcome. -/
def ofOutcome (o : RoundOutcome) : RoundResponse where
  status := o.status
  multiple := o.multiple
  movedTo := o.movedTo
  failures := o.failures
  mode := o.mode
  enqueuedJobs := o.enqueuedJobs

/-- The fields of the written form besides those of the status. -/
def record : Json.Record (RoundStatus → RoundResponse) :=
  .map (fun (multiple, movedTo, failures, mode, enqueuedJobs) status =>
      { status, multiple, movedTo, failures, mode, enqueuedJobs }) <|
    .both (.required "multiple" Json.Form.decoder) <|
    .both (.nullable "moved_to" Json.Form.decoder) <|
    .both (.required "failures" (Json.Decode.list Json.Form.decoder)) <|
    .both (.required "mode" Json.Form.decoder) <|
    .required "enqueued_jobs" Json.Decode.natural

/-- The keys of the fields besides those of the status. -/
def keys : List String :=
  ["multiple", "moved_to", "failures", "mode", "enqueued_jobs"]

/-- The name of a status, which may be given by its place among the statuses. -/
def statusName : Json.Draft → Except Json.Fault String
  | .string (some name) => .ok name
  | .number (some (.natural 0)) => .ok "complete"
  | .number (some (.natural 1)) => .ok "partial"
  | d => .error d.mismatch

/-- Decodes an object in which the fields of the status stand among the others. -/
def decoder : Json.Decoder RoundResponse
  | depth + 1, .object entries closed => do
      let (own, others) := entries.partition fun (key, _) => key.any (· ∈ keys)
      let make ← record.ofEntries Json.Record.skipValue depth own closed
      let status ←
        Json.Record.ofTaggedEntries "status" statusName RoundStatus.record? depth others closed
      return make status
  | 0, .object _ _ => .error .malformed
  | _, d => .error d.mismatch

instance : Json.Form RoundResponse where
  toValue r := .object <|
    r.status.entries ++
    [ ("multiple", Json.Form.toValue r.multiple),
      ("moved_to", .orNull (r.movedTo.map Json.Form.toValue)),
      ("failures", .array (r.failures.map Json.Form.toValue)),
      ("mode", Json.Form.toValue r.mode),
      ("enqueued_jobs", .natural r.enqueuedJobs) ]
  decoder := decoder

end RoundResponse

end CaseGrouping
