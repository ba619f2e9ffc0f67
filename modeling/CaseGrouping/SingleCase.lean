import CaseGrouping.Json.Record
import CaseGrouping.Reference
import CaseGrouping.Register

/-! Single cases: independently owned records that may belong to one multiple at a time.
-/

namespace CaseGrouping

/-- Free-form fields of a case, in the order of their names. -/
abbrev Fields :=
  Register String Json.Value

/-- The entries of one object, of a repeated key the last. -/
def Fields.decoder : Json.Decoder Fields
  | depth + 1, .object entries closed => do
      let es ← entries.mapM fun (key, d) =>
        match key with
        | some key => do return (key, ← Json.Value.decoder depth d)
        | none => .error .malformed
      if closed then .ok (Register.ofList es) else .error .malformed
  | 0, .object _ _ => .error .malformed
  | _, d => .error d.mismatch

instance : Json.Form Fields where
  toValue fields := .object fields.entries
  decoder := Fields.decoder

/-- A case is live, or has been struck out and may still be grouped. -/
inductive CaseStatus where
  | active
  | struck
  deriving DecidableEq, Repr

namespace CaseStatus

/-- The word for a status. -/
def word : CaseStatus → String
  | .active => "active"
  | .struck => "struck"

/-- The status for a word. -/
def ofWord? (s : String) : Option CaseStatus :=
  [CaseStatus.active, .struck].find? (·.word == s)

instance : Json.Form CaseStatus where
  toValue s := .string s.word
  decoder := Json.Decode.named ofWord?

end CaseStatus

/-- A single case as its store holds it. -/
structure SingleCase where
  reference : CaseReference
  multiple : Option MultipleReference := none
  leadClaimant : Bool := false
  subGroup : Option String := none
  status : CaseStatus := .active
  fields : Fields := ∅
  deriving DecidableEq

namespace SingleCase

/-- The case belongs to a multiple other than the given one. -/
def belongsElsewhere (c : SingleCase) (reference : Option MultipleReference) : Bool :=
  match c.multiple with
  | none => false
  | some current => reference ≠ some current

/-- The case inside a multiple. -/
def inMultiple (c : SingleCase) (reference : MultipleReference) : SingleCase :=
  { c with multiple := some reference }

/-- The case with a status. -/
def withStatus (c : SingleCase) (status : CaseStatus) : SingleCase :=
  { c with status }

/-- The case with all zeros in its fields without a sign. -/
def withPlainZeros (c : SingleCase) : SingleCase :=
  { c with fields := c.fields.mapValues Json.Value.withPlainZeros }

/-- The fields of the written form. -/
def record : Json.Record SingleCase :=
  .map (fun (reference, multiple, leadClaimant, subGroup, status, fields) =>
      { reference, multiple, leadClaimant, subGroup, status, fields }) <|
    .both (.required "case_reference" Json.Form.decoder) <|
    .both (.elective "multiple_reference" Json.Form.decoder) <|
    .both (.defaulted "lead_claimant" Json.Decode.bool false) <|
    .both (.elective "sub_group" Json.Decode.string) <|
    .both (.defaulted "status" Json.Form.decoder .active) <|
    .defaulted "fields" Json.Form.decoder ∅

instance : Json.Form SingleCase where
  toValue c := .object
    [ ("case_reference", Json.Form.toValue c.reference),
      ("multiple_reference", .orNull (c.multiple.map Json.Form.toValue)),
      ("lead_claimant", .bool c.leadClaimant),
      ("sub_group", .orNull (c.subGroup.map .string)),
      ("status", Json.Form.toValue c.status),
      ("fields", Json.Form.toValue c.fields) ]
  decoder := record.decoder

end SingleCase

end CaseGrouping
