import CaseGrouping.Json.Record

/-! The case types and the jurisdiction that every call to a store is made for.
-/

namespace CaseGrouping

/-- Case types and jurisdiction. -/
structure CaseScope where
  singleType : String := "ET_EnglandWales"
  multipleType : String := "ET_EnglandWales_Multiple"
  jurisdiction : String := "EMPLOYMENT"
  deriving DecidableEq, Repr

namespace CaseScope

/-- The fields of the written form. -/
def record : Json.Record CaseScope :=
  .map (fun (singleType, multipleType, jurisdiction) =>
      { singleType, multipleType, jurisdiction }) <|
    .both (.required "single_case_type_id" Json.Decode.string) <|
    .both (.required "multiple_case_type_id" Json.Decode.string) <|
    .required "jurisdiction" Json.Decode.string

instance : Json.Form CaseScope where
  toValue s := .object
    [ ("single_case_type_id", .string s.singleType),
      ("multiple_case_type_id", .string s.multipleType),
      ("jurisdiction", .string s.jurisdiction) ]
  decoder := record.decoder

end CaseScope

end CaseGrouping
