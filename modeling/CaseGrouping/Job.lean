import CaseGrouping.Change
import CaseGrouping.Timestamp
import CaseGrouping.Uuid

/-! Update jobs: a change addressed to a batch of cases, with an identity derived from its content
and from the version of the multiple that the round read.
-/

namespace CaseGrouping

/-- A change addressed to a batch of cases of a multiple. -/
structure Job where
  id : Uuid
  multiple : MultipleReference
  baseVersion : Option UInt64
  cases : List CaseReference
  change : ChangeSet
  expectedBatchSize : Nat
  createdAt : Timestamp
  deriving DecidableEq

namespace Job

/-- The name space of the identifiers of jobs and of single writes. -/
def nameSpace : Uuid :=
  ⟨0x3f1c8a526e0b4d9aa17c25e4906d12b8⟩

/-- The mark before each case reference of a key. -/
def caseMark : String :=
  "\x1f"

/-- The mark before the change of a key. -/
def changeMark : String :=
  "\x1e"

/-- The text that the identifier of a job is derived from. -/
def key (multiple : MultipleReference) (baseVersion : Option UInt64) (cases : List CaseReference)
    (change : ChangeSet) : String :=
  multiple.text ++ "@" ++ (baseVersion.map (toString ·.toNat)).getD ""
    ++ String.join (cases.map fun c => caseMark ++ c.text) ++ changeMark ++ change.contentKey

/-- The text that the identifier of one write is derived from. -/
def writeKey (case : CaseReference) (change : ChangeSet) : String :=
  case.text ++ changeMark ++ change.contentKey

/-- The job that addresses a change to cases. -/
def make (multiple : MultipleReference) (baseVersion : Option UInt64)
    (cases : List CaseReference) (change : ChangeSet) (createdAt : Timestamp) : Job where
  id := .ofName nameSpace (key multiple baseVersion cases change)
  multiple := multiple
  baseVersion := baseVersion
  cases := cases
  change := change
  expectedBatchSize := cases.length
  createdAt := createdAt

/-- The identifier of the write of a job to one case; jobs that carry the same write share it. -/
def idempotencyKey (job : Job) (case : CaseReference) : Uuid :=
  .ofName nameSpace (writeKey case job.change)

/-- The job addresses the case. -/
def targets (job : Job) (case : CaseReference) : Bool :=
  case ∈ job.cases

/-- Applies the job to a case; a case that it does not address is left alone. -/
def apply (job : Job) (case : SingleCase) : SingleCase :=
  if job.targets case.reference then job.change.apply case else case

/-- The fields of the written form. -/
def record : Json.Record Job :=
  .map (fun (id, multiple, baseVersion, cases, change, expectedBatchSize, createdAt) =>
      { id, multiple, baseVersion, cases, change, expectedBatchSize, createdAt }) <|
    .both (.required "job_id" Json.Form.decoder) <|
    .both (.required "multiple_reference" Json.Form.decoder) <|
    .both (.elective "base_version" Json.Decode.word) <|
    .both (.required "case_references" (Json.Decode.list Json.Form.decoder)) <|
    .both (.required "change_set" Json.Form.decoder) <|
    .both (.required "expected_batch_size" Json.Decode.natural) <|
    .required "created_at" Json.Form.decoder

instance : Json.Form Job where
  toValue job := .object
    [ ("job_id", Json.Form.toValue job.id),
      ("multiple_reference", Json.Form.toValue job.multiple),
      ("base_version", .orNull (job.baseVersion.map fun v => .number (.natural v))),
      ("case_references", .array (job.cases.map Json.Form.toValue)),
      ("change_set", Json.Form.toValue job.change),
      ("expected_batch_size", .natural job.expectedBatchSize),
      ("created_at", Json.Form.toValue job.createdAt) ]
  decoder := record.decoder

end Job

end CaseGrouping
