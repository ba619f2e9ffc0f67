import CaseGrouping.Api.Body
import CaseGrouping.Api.Error
import CaseGrouping.Api.MediaType

/-! The requests that are served: two for rounds, and one that tells the health of the service.
-/

namespace CaseGrouping.Api

/-- A request as far as it counts here. -/
structure Request where
  method : String
  target : String
  contentType : Option String := none
  body : String := ""

/-- A status code, and a body unless there is none or it is not in the data format. -/
structure Response where
  status : Nat
  body : Option Json.Value := none

/-- The version that the service tells. -/
def serviceVersion : String :=
  "0.1.0"

/-- A character of the scheme of an address. -/
def isSchemeChar (c : Char) : Bool :=
  c.isAlphanum || c == '+' || c == '-' || c == '.'

/-- The path may end before this character, and the authority ends before it too. -/
def isPathEnd (c : Char) : Bool :=
  c == '?' || c == '#'

/-- A target from its path on: a full address loses its scheme and authority, and a target that
neither is one nor starts with a slash has no path.
-/
def fromPath (target : List Char) : List Char :=
  match target with
  | '/' :: _ => target
  | _ =>
      match target.dropWhile isSchemeChar with
      | ':' :: '/' :: '/' :: rest => rest.dropWhile fun c => !(c == '/' || isPathEnd c)
      | _ => []

/-- The path of a request, without a query or a fragment. -/
def Request.path (r : Request) : String :=
  String.ofList ((fromPath r.target.toList).takeWhile fun c => !isPathEnd c)

/-- The body of a request, once its media type has been accepted. -/
def Request.decode (r : Request) (decoder : Json.Decoder α) : Except Nat α :=
  if r.contentType.any MediaType.isJson then
    match Json.decodeText decoder r.body with
    | .ok a => .ok a
    | .error .malformed => .error 400
    | .error .mismatched => .error 422
  else .error 415

/-- The answer to a round. -/
def Response.ofRound : Except RoundError RoundOutcome → Response
  | .ok outcome =>
      { status := if outcome.failures.isEmpty then 200 else 207
        body := some (Json.Form.toValue (RoundResponse.ofOutcome outcome)) }
  | .error e =>
      { status := ApiError.statusOf e
        body := some (Json.Form.toValue (ApiError.ofRoundError e)) }

/-- Carries out the round that the body of a request asks for. -/
def serveRound (r : Request) (decoder : Json.Decoder α) (round : α → Round RoundOutcome)
    : StateM Stores Response :=
  match r.decode decoder with
  | .error status => return { status }
  | .ok a => do return .ofRound (← (round a).run)

/-- What is told of the health of the service. -/
def health (k : Coordinator) : Json.Value :=
  .object
    [ ("status", .string "healthy"), ("version", .string serviceVersion),
      ("fan_out_workers", .natural k.fanOut.workers) ]

/-- Serves a request. -/
def serve (k : Coordinator) (r : Request) : StateM Stores Response :=
  match r.path, r.method with
  | "/multiples/bulk-create", "POST" => serveRound r BulkCreation.record.decoder k.createBulk
  | "/multiples/bulk-update", "POST" => serveRound r BulkUpdate.record.decoder k.updateBulk
  | "/health", "GET" => return { status := 200, body := some (health k) }
  | "/health", "HEAD" => return { status := 200 }
  | "/multiples/bulk-create", _ | "/multiples/bulk-update", _ | "/health", _ =>
      return { status := 405 }
  | _, _ => return { status := 404 }

end CaseGrouping.Api
