import CaseGrouping.SingleCase

/-! Filters for searching single cases: by a list of references, or by the multiple they are in.
-/

namespace CaseGrouping

/-- What the cases of a search have in common. -/
inductive SearchCriteria where
  | references (cases : List CaseReference)
  | multiple (multiple : MultipleReference)
  deriving DecidableEq

namespace SearchCriteria

/-- The case is one that the search is for. -/
def accepts : SearchCriteria → SingleCase → Bool
  | .references cases, c => c.reference ∈ cases
  | .multiple m, c => c.multiple = some m

/-- The fields of the written form of an alternative. -/
def record? : String → Option (Json.Record SearchCriteria)
  | "references" => some <|
      .map references <| .required "case_references" (Json.Decode.list Json.Form.decoder)
  | "multiple" => some <| .map multiple <| .required "multiple_reference" Json.Form.decoder
  | _ => none

instance : Json.Form SearchCriteria where
  toValue
    | .references cases => .object
        [ ("by", .string "references"),
          ("case_references", .array (cases.map Json.Form.toValue)) ]
    | .multiple m => .object
        [("by", .string "multiple"), ("multiple_reference", Json.Form.toValue m)]
  decoder := Json.Record.tagged "by" record?

end SearchCriteria

end CaseGrouping
