import CaseGrouping.SingleCase

/-! Changes of single cases. Everything a change can express sets a value, so a change that is
applied again leaves the case as it is.
-/

namespace CaseGrouping

/-- What a change does to the membership of a case. -/
inductive MembershipChange where
  | keep
  | attach (multiple : MultipleReference)
  /-- Takes effect only on a case that still belongs to the multiple. -/
  | detach (multiple : MultipleReference)
  deriving DecidableEq

namespace MembershipChange

/-- The word for the kind of change. -/
def kind : MembershipChange → String
  | .keep => "keep"
  | .attach _ => "attach"
  | .detach _ => "detach"

/-- The multiple that the case joins or leaves. -/
def multiple? : MembershipChange → Option MultipleReference
  | .keep => none
  | .attach multiple => some multiple
  | .detach multiple => some multiple

/-- Decodes the content of a kind: a reference, or for `keep` null. -/
def contentDecoder (kind : String) : Json.Decoder MembershipChange :=
  fun depth d =>
    match kind, d with
    | "keep", .null => .ok .keep
    | "keep", d => .error d.mismatch
    | "attach", d => (Json.Form.decoder depth d).map .attach
    | _, d => (Json.Form.decoder depth d).map .detach

/-- A word that names a kind. -/
def kindWord? (s : String) : Option String :=
  if s ∈ ["keep", "attach", "detach"] then some s else none

-----------------------------------------------------------------------------------------
-- Decoding
-----------------------------------------------------------------------------------------

/-- The parts of a change met so far: its kind, its content, and the change itself once both
are there. A content that comes before its kind has to be a value that is kept.
-/
structure Parts where
  kind : Option String := none
  content : Option Json.Draft := none
  change : Option MembershipChange := none

/-- Adds one entry of an object to the parts. The kind is a choice among words. -/
def Parts.add (depth : Nat) (p : Parts) (entry : Option String × Json.Draft)
    : Except Json.Fault Parts :=
  match entry with
  | (none, _) => .error .malformed
  | (some "kind", d) =>
      if p.kind.isSome then .error .mismatched
      else do
        let kind ← Json.Decode.named kindWord? depth d
        match p.content with
        | none => .ok { p with kind := some kind }
        | some content =>
            let change ← contentDecoder kind depth content
            .ok { p with kind := some kind, change := some change }
  | (some "multiple_reference", d) =>
      if p.content.isSome then .error .mismatched
      else
        match p.kind with
        | none => do
            discard (Json.Value.decoder depth d)
            .ok { p with content := some d }
        | some kind => do
            let change ← contentDecoder kind depth d
            .ok { p with content := some d, change := some change }
  | (some _, d) => if d.isWellFormed then .ok p else .error .malformed

/-- The change of all parts. -/
def Parts.change? (p : Parts) : Except Json.Fault MembershipChange :=
  match p.change, p.kind with
  | some change, _ => .ok change
  | none, some "keep" => .ok .keep
  | none, _ => .error .mismatched

/-- Decodes an object of kind and content, or an array of the two with a plain word for kind. -/
def decoder : Json.Decoder MembershipChange
  | depth + 1, .object entries closed => do
      let p ← entries.foldlM (Parts.add depth) {}
      if closed then p.change? else .error .malformed
  | depth + 1, .array items closed => do
      match items with
      | [] => if closed then .error .mismatched else .error .malformed
      | k :: rest =>
          let kind ← Json.Decode.parsed kindWord? depth k
          match rest with
          | [] => if closed then .error .mismatched else .error .malformed
          | d :: rest =>
              let change ← contentDecoder kind depth d
              if closed && rest.isEmpty then .ok change else .error .malformed
  | 0, .object _ _ => .error .malformed
  | 0, .array _ _ => .error .malformed
  | _, d => .error d.mismatch

instance : Json.Form MembershipChange where
  toValue c := .object <|
    ("kind", .string c.kind) ::
      match c.multiple? with
      | none => []
      | some multiple => [("multiple_reference", Json.Form.toValue multiple)]
  decoder := decoder

end MembershipChange

/-- What to write into a case: the membership, and the lead flag, the tag and the fields as far
as they are set.
-/
structure ChangeSet where
  membership : MembershipChange := .keep
  lead : Option Bool := none
  subGroup : Option String := none
  fields : Fields := ∅
  deriving DecidableEq

namespace ChangeSet

/-- The change that writes nothing. -/
def empty : ChangeSet :=
  {}

/-- Joins a multiple with a lead flag. -/
def attach (multiple : MultipleReference) (lead : Bool) : ChangeSet :=
  { membership := .attach multiple, lead := some lead }

/-- Leaves a multiple. -/
def detach (multiple : MultipleReference) : ChangeSet :=
  { membership := .detach multiple }

/-- Sets only the lead flag. -/
def setLead (lead : Bool) : ChangeSet :=
  { lead := some lead }

/-- The change that also writes the lead flag. -/
def withLead (c : ChangeSet) (lead : Bool) : ChangeSet :=
  { c with lead := some lead }

/-- The change that also writes the tag. -/
def withSubGroup (c : ChangeSet) (subGroup : String) : ChangeSet :=
  { c with subGroup := some subGroup }

/-- The change that also writes fields; of a field set twice the later value is kept. -/
def withFields (c : ChangeSet) (fields : Fields) : ChangeSet :=
  { c with fields := c.fields.insertAll fields.entries }

/-- The change writes nothing. -/
def isEmpty (c : ChangeSet) : Bool :=
  c.membership = .keep && c.lead.isNone && c.subGroup.isNone && c.fields.isEmpty

/-- Writes the lead flag, the tag and the fields that are set. -/
def writeTo (c : ChangeSet) (case : SingleCase) : SingleCase :=
  { case with
    leadClaimant := c.lead.getD case.leadClaimant
    subGroup := c.subGroup <|> case.subGroup
    fields := case.fields.insertAll c.fields.entries }

/-- Applies the change. A case that no longer belongs to the multiple of a detach is left alone;
otherwise a detach clears lead flag and tag before the values of the change are written.
-/
def apply (c : ChangeSet) (case : SingleCase) : SingleCase :=
  match c.membership with
  | .keep => c.writeTo case
  | .attach multiple => c.writeTo { case with multiple := some multiple }
  | .detach multiple =>
      if case.multiple = some multiple then
        c.writeTo { case with multiple := none, leadClaimant := false, subGroup := none }
      else case

/-- The fields of the written form. -/
def record : Json.Record ChangeSet :=
  .map (fun (membership, lead, subGroup, fields) => { membership, lead, subGroup, fields }) <|
    .both (.required "membership" Json.Form.decoder) <|
    .both (.nullable "lead" Json.Decode.bool) <|
    .both (.nullable "sub_group" Json.Decode.string) <|
    .required "fields" Json.Form.decoder

instance : Json.Form ChangeSet where
  toValue c := .object
    [ ("membership", Json.Form.toValue c.membership),
      ("lead", .orNull (c.lead.map .bool)),
      ("sub_group", .orNull (c.subGroup.map .string)),
      ("fields", Json.Form.toValue c.fields) ]
  decoder := record.decoder

/-- The text by which equal changes are told from different ones: the written form. -/
def contentKey (c : ChangeSet) : String :=
  Json.text c

end ChangeSet

/-- A change addressed to one case. -/
structure CaseWrite where
  case : CaseReference
  change : ChangeSet
  deriving DecidableEq

end CaseGrouping
