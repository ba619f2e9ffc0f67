import CaseGrouping.ValidationError

/-! Multiples: records that group single cases, and the checks on them.
A change of the members recomputes the collection of case references and the counter, so the
three agree in every record that was built here.
-/

namespace CaseGrouping

/-- One member of a multiple. -/
structure Member where
  case : CaseReference
  lead : Bool := false
  subGroup : Option String := none
  deriving DecidableEq

namespace Member

/-- The fields of the written form. -/
def record : Json.Record Member :=
  .map (fun (case, lead, subGroup) => { case, lead, subGroup }) <|
    .both (.required "case_reference" Json.Form.decoder) <|
    .both (.defaulted "lead" Json.Decode.bool false) <|
    .elective "sub_group" Json.Decode.string

instance : Json.Form Member where
  toValue m := .object
    [ ("case_reference", Json.Form.toValue m.case), ("lead", .bool m.lead),
      ("sub_group", .orNull (m.subGroup.map .string)) ]
  decoder := record.decoder

end Member

/-- A grouping record. The collection and the counter mirror the members, the search collection
holds the last filter result of a caller, and the version is the one the record was read at.
-/
structure Multiple where
  reference : Option MultipleReference := none
  name : String
  members : List Member := []
  collection : List CaseReference := []
  counter : Nat := 0
  search : List CaseReference := []
  version : Option UInt64 := none
  deriving DecidableEq

namespace Multiple

/-- The record with a reference. -/
def withReference (m : Multiple) (reference : MultipleReference) : Multiple :=
  { m with reference := some reference }

/-- The record with other members, its collection and counter recomputed. -/
def withMembers (m : Multiple) (members : List Member) : Multiple :=
  { m with members, collection := members.map Member.case, counter := members.length }

/-- The record with the filter result of a caller. -/
def withSearch (m : Multiple) (search : List CaseReference) : Multiple :=
  { m with search }

/-- The record without a filter result. -/
def clearSearch (m : Multiple) : Multiple :=
  { m with search := [] }

/-- The record stamped with a version. -/
def withVersion (m : Multiple) (version : UInt64) : Multiple :=
  { m with version := some version }

/-- The references of the members, in order. -/
def memberReferences (m : Multiple) : List CaseReference :=
  m.members.map Member.case

/-- The entry of a member. -/
def member? (m : Multiple) (reference : CaseReference) : Option Member :=
  m.members.find? (·.case = reference)

/-- The first member with the lead flag. -/
def leadCase? (m : Multiple) : Option CaseReference :=
  (m.members.find? (·.lead)).map Member.case

/-- The text of the reference, for messages. -/
def shownReference (m : Multiple) : String :=
  match m.reference with
  | some r => r.text
  | none => "<unassigned>"

/-- The first case that is listed a second time, going through the list from the left. -/
def firstRepeated? : List CaseReference → List CaseReference → Option CaseReference
  | _, [] => none
  | seen, r :: rest => if r ∈ seen then some r else firstRepeated? (r :: seen) rest

/-- Accepts a record that has a reference. -/
def checkReference (m : Multiple) : Except ValidationError Unit :=
  if m.reference.isNone then .error .missingReference else .ok ()

/-- Accepts what a caller may send: at most one lead and no case twice. A lead may be missing. -/
def validateIncoming (m : Multiple) : Except ValidationError Unit :=
  let leads := (m.members.filter (·.lead)).map (·.case.text)
  if 1 < leads.length then .error (.multipleLeads m.shownReference leads)
  else
    match firstRepeated? [] m.memberReferences with
    | some r => .error (.duplicateMember m.shownReference r.text)
    | none => .ok ()

/-- Accepts what may be committed: besides, the collection and the counter mirror the members,
and there is a lead if there are members.
-/
def checkInvariants (m : Multiple) : Except ValidationError Unit := do
  m.validateIncoming
  if m.counter ≠ m.members.length ∨ m.collection ≠ m.memberReferences then
    .error (.inconsistentMembers m.shownReference m.members.length m.collection.length m.counter)
  else if m.members ≠ [] ∧ m.leadCase?.isNone then
    .error (.missingLead m.shownReference)
  else .ok ()

/-- The fields of the written form. -/
def record : Json.Record Multiple :=
  .map (fun (reference, name, members, collection, counter, search, version) =>
      { reference, name, members, collection, counter, search, version }) <|
    .both (.elective "reference" Json.Form.decoder) <|
    .both (.required "name" Json.Decode.string) <|
    .both (.defaulted "members" (Json.Decode.list Json.Form.decoder) []) <|
    .both (.defaulted "case_id_collection" (Json.Decode.list Json.Form.decoder) []) <|
    .both (.defaulted "case_counter" Json.Decode.natural 0) <|
    .both (.defaulted "search_collection" (Json.Decode.list Json.Form.decoder) []) <|
    .elective "version" Json.Decode.word

instance : Json.Form Multiple where
  toValue m := .object
    [ ("reference", .orNull (m.reference.map Json.Form.toValue)),
      ("name", .string m.name),
      ("members", .array (m.members.map Json.Form.toValue)),
      ("case_id_collection", .array (m.collection.map Json.Form.toValue)),
      ("case_counter", .natural m.counter),
      ("search_collection", .array (m.search.map Json.Form.toValue)),
      ("version", .orNull (m.version.map fun v => .number (.natural v))) ]
  decoder := record.decoder

end Multiple

end CaseGrouping
