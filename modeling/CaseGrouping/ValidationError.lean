import CaseGrouping.Failure
import CaseGrouping.Text.Quoted

/-! What can be wrong with a request before any case is written.
-/

namespace CaseGrouping

/-- A structural problem of a request. References are given by their texts, a multiple without
one as `<unassigned>`.
-/
inductive ValidationError where
  | emptyReference
  | emptyRequest
  | missingReference
  | invalidTargetReference (target current : String)
  | multipleLeads (reference : String) (leads : List String)
  | inconsistentMembers (reference : String) (members collection counter : Nat)
  | missingLead (reference : String)
  | noEligibleCases (failures : List Failure)
  | duplicateMember (reference case : String)
  deriving DecidableEq

namespace ValidationError

/-- The wording of a validation error. -/
def message : ValidationError → String
  | .emptyReference => "reference must not be empty"
  | .emptyRequest => "no case references were requested or matched"
  | .missingReference => "multiple has no reference"
  | .invalidTargetReference target current =>
      s!"multiple reference {target} does not exist or is the same as the current multiple "
        ++ current
  | .multipleLeads reference leads =>
      s!"multiple {reference} has more than one lead case: " ++ Text.quoteList leads
  | .inconsistentMembers reference members collection counter =>
      s!"multiple {reference} is inconsistent: {members} members, {collection} collection entries, "
        ++ s!"counter {counter}"
  | .missingLead reference => s!"multiple {reference} has members but no lead case"
  | .noEligibleCases failures =>
      "no requested case can join the multiple: " ++ "; ".intercalate (failures.map Failure.message)
  | .duplicateMember reference case =>
      s!"case {case} appears more than once in multiple {reference}"

/-- The name of the kind of error. -/
def name : ValidationError → String
  | .emptyReference => "EmptyReference"
  | .emptyRequest => "EmptyRequest"
  | .missingReference => "MissingReference"
  | .invalidTargetReference .. => "InvalidTargetReference"
  | .multipleLeads .. => "MultipleLeads"
  | .inconsistentMembers .. => "InconsistentMembers"
  | .missingLead .. => "MissingLead"
  | .noEligibleCases .. => "NoEligibleCases"
  | .duplicateMember .. => "DuplicateMember"

/-- The errors that have no further content. -/
def plain? (name : String) : Option ValidationError :=
  [emptyReference, emptyRequest, missingReference].find? (·.name == name)

/-- The content of the errors that have one. -/
def record? : String → Option (Json.Record ValidationError)
  | "InvalidTargetReference" => some <|
      .map (fun (target, current) => invalidTargetReference target current) <|
        .both (.required "target" Json.Decode.string) <|
        .required "current" Json.Decode.string
  | "MultipleLeads" => some <|
      .map (fun (reference, leads) => multipleLeads reference leads) <|
        .both (.required "reference" Json.Decode.string) <|
        .required "leads" (Json.Decode.list Json.Decode.string)
  | "InconsistentMembers" => some <|
      .map (fun (reference, members, collection, counter) =>
          inconsistentMembers reference members collection counter) <|
        .both (.required "reference" Json.Decode.string) <|
        .both (.required "members" Json.Decode.natural) <|
        .both (.required "collection" Json.Decode.natural) <|
        .required "counter" Json.Decode.natural
  | "MissingLead" => some <| .map missingLead <| .required "reference" Json.Decode.string
  | "NoEligibleCases" => some <|
      .map noEligibleCases <| .required "failures" (Json.Decode.list Json.Form.decoder)
  | "DuplicateMember" => some <|
      .map (fun (reference, case) => duplicateMember reference case) <|
        .both (.required "reference" Json.Decode.string) <|
        .required "case_reference" Json.Decode.string
  | _ => none

/-- The content of an error, if it has any. -/
def content : ValidationError → List (String × Json.Value)
  | .emptyReference | .emptyRequest | .missingReference => []
  | .invalidTargetReference target current =>
      [("target", .string target), ("current", .string current)]
  | .multipleLeads reference leads =>
      [("reference", .string reference), ("leads", .array (leads.map .string))]
  | .inconsistentMembers reference members collection counter =>
      [ ("reference", .string reference), ("members", .natural members),
        ("collection", .natural collection), ("counter", .natural counter) ]
  | .missingLead reference => [("reference", .string reference)]
  | .noEligibleCases failures => [("failures", .array (failures.map Json.Form.toValue))]
  | .duplicateMember reference case =>
      [("reference", .string reference), ("case_reference", .string case)]

instance : Json.Form ValidationError where
  toValue e :=
    match e.content with
    | [] => .string e.name
    | entries => .object [(e.name, .object entries)]
  decoder := Json.Decode.choice plain? fun name => (record? name).map Json.Record.decoder

/-- Decodes an error whose content, if it has any, is an object. -/
def objectDecoder : Json.Decoder ValidationError :=
  Json.Decode.choice plain? fun name => (record? name).map Json.Record.objectDecoder

end ValidationError

end CaseGrouping
