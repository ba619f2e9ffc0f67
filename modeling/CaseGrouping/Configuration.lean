import CaseGrouping.CaseScope
import CaseGrouping.RetryPolicy
import CaseGrouping.Text.Blank

/-! The settings of the service, looked up by name. A setting that is not there or blank has its
default; the first one that is not valid is reported.
-/

namespace CaseGrouping

/-- How log lines are written. -/
inductive LogFormat where
  | pretty
  | json
  deriving DecidableEq, Repr

namespace LogFormat

/-- The name of a format. -/
def name : LogFormat → String
  | .pretty => "Pretty"
  | .json => "Json"

/-- The format that a word names, in any case and with blanks around it. -/
def ofText (s : String) : Except String LogFormat :=
  let word := String.ofList ((Text.trim s).toList.map Char.toLower)
  match word with
  | "pretty" => .ok .pretty
  | "json" => .ok .json
  | _ => .error ("unknown log format '" ++ word ++ "', expected 'pretty' or 'json'")

end LogFormat

/-- A setting that is there but not valid. -/
structure SettingError where
  key : String
  reason : String
  deriving DecidableEq, Repr

/-- The wording of a setting error. -/
def SettingError.message (e : SettingError) : String :=
  "Invalid value for " ++ e.key ++ ": " ++ e.reason

/-- The settings of the service. Without the address of a case store, or of a queue, the ones in
memory are used.
-/
structure Configuration where
  caseStoreUrl : Option String := none
  caseStoreTimeout : Duration := .ofMillis 5000
  brokerEndpoint : Option String := none
  queueUrl : Option String := none
  workers : Nat
  retry : RetryPolicy := {}
  batchSize : Nat := 50
  scope : CaseScope := {}
  host : String := "0.0.0.0"
  port : Nat := 8081
  logFormat : LogFormat := .pretty
  batchSize_pos : 0 < batchSize := by decide

namespace Configuration

/-- Settings by their names. -/
abbrev Lookup :=
  String → Option String

/-- The text of a setting, unless it is blank. -/
def setting? (lookup : Lookup) (key : String) : Option String :=
  (lookup key).filter fun s => !Text.isAllBlank s

/-- A setting read from its text without the blanks around it. -/
def parsed (lookup : Lookup) (key : String) (read : String → Except String α) (default : α)
    : Except SettingError α :=
  match setting? lookup key with
  | none => .ok default
  | some s => (read (Text.trim s)).mapError (⟨key, ·⟩)

/-- Reads a number that fits a word of the given width. -/
def readWord (bits : Nat) (s : String) : Except String Nat :=
  (Text.readNatural (Text.wordLimit bits) s).mapError Text.NumeralError.message

/-- A number that has to be greater than zero. -/
def positive (lookup : Lookup) (key : String) (bits default : Nat) : Except SettingError Nat := do
  let n ← parsed lookup key (readWord bits) default
  if n = 0 then .error ⟨key, "must be greater than 0"⟩ else .ok n

/-- A span of time in milliseconds. -/
def millis (lookup : Lookup) (key : String) (default : Duration) : Except SettingError Duration :=
  parsed lookup key
    (fun s => (readWord 64 s).map fun n => .ofMillis (UInt64.ofNat n)) default

/-- The settings under their names; `processors` is the default for the number of workers. -/
def ofLookup (lookup : Lookup) (processors : Nat) : Except SettingError Configuration := do
  let default : Configuration := { workers := processors }
  let workers ← positive lookup "FAN_OUT_WORKERS" 64 default.workers
  let maxAttempts ← positive lookup "FAN_OUT_MAX_ATTEMPTS" 32 default.retry.maxAttempts
  let baseBackoff ← millis lookup "FAN_OUT_RETRY_BACKOFF_MS" default.retry.baseBackoff
  let batchSize ← positive lookup "QUEUE_BATCH_SIZE" 64 default.batchSize
  let caseStoreTimeout ← millis lookup "CASE_STORE_TIMEOUT_MS" default.caseStoreTimeout
  let port ← parsed lookup "APP_PORT" (readWord 16) default.port
  let logFormat ← parsed lookup "LOG_FORMAT" LogFormat.ofText default.logFormat
  let text (key fallback : String) : String := (setting? lookup key).getD fallback
  return {
    caseStoreUrl := setting? lookup "CASE_STORE_URL"
    caseStoreTimeout
    brokerEndpoint := setting? lookup "SQS_ENDPOINT"
    queueUrl := setting? lookup "SQS_UPDATE_QUEUE_URL"
    workers
    retry := { maxAttempts, baseBackoff }
    batchSize := max batchSize 1
    scope :=
      { singleType := text "SINGLE_CASE_TYPE_ID" default.scope.singleType
        multipleType := text "MULTIPLE_CASE_TYPE_ID" default.scope.multipleType
        jurisdiction := text "JURISDICTION" default.scope.jurisdiction }
    host := text "APP_HOST" default.host
    port
    logFormat
    batchSize_pos := by omega }

/-- The address that the service listens at. -/
def bindAddress (c : Configuration) : String :=
  c.host ++ ":" ++ toString c.port

end Configuration

end CaseGrouping
