import CaseGrouping.Service
import CaseGrouping.Text.Quoted

/-! Descriptions of the parts of the service for people who look into it: the names of the parts
with their fields, where two dots stand for fields that are left out.
-/

namespace CaseGrouping.Description

/-- A part with its fields in braces. -/
def part (name : String) (fields : List (String × String)) (leavesOut : Bool) : String :=
  let shown := fields.map fun (key, text) => key ++ ": " ++ text
  name ++ " \x7b " ++ ", ".intercalate (if leavesOut then shown ++ [".."] else shown) ++ " \x7d"

/-- A text in quotes, or the word for none. -/
def optional (s : Option String) : String :=
  match s with
  | none => "None"
  | some s => "Some(" ++ Text.quote s ++ ")"

/-- Describes a retry policy. -/
def retryPolicy (p : RetryPolicy) : String :=
  part "RetryPolicy"
    [("max_attempts", toString p.maxAttempts), ("base_backoff", p.baseBackoff.text)] false

/-- Describes a scope. -/
def scope (s : CaseScope) : String :=
  part "CaseScope"
    [ ("single_case_type_id", Text.quote s.singleType),
      ("multiple_case_type_id", Text.quote s.multipleType),
      ("jurisdiction", Text.quote s.jurisdiction) ] false

/-- Describes a pool while no write is under way. -/
def executor (f : FanOut) : String :=
  part "FanOutExecutor"
    [ ("case_type_id", Text.quote f.caseType), ("workers", toString f.workers),
      ("available", toString f.workers), ("retry", retryPolicy f.retry) ] true

/-- Describes how writes are propagated. -/
def propagator (k : Coordinator) : String :=
  part "Propagator"
    [("executor", executor k.fanOut), ("batch_size", toString k.batchSize)] true

/-- Describes what creation rounds are carried out with. -/
def creation (k : Coordinator) : String :=
  part "BulkCreationCoordinator" [("scope", scope k.scope), ("propagator", propagator k)] true

/-- Describes what update rounds are carried out with. -/
def update (k : Coordinator) : String :=
  part "BulkUpdateCoordinator" [("scope", scope k.scope), ("propagator", propagator k)] true

/-- Describes the settings. -/
def configuration (c : Configuration) : String :=
  part "AppConfig"
    [ ("case_store_url", optional c.caseStoreUrl),
      ("case_store_timeout", c.caseStoreTimeout.text),
      ("sqs_endpoint", optional c.brokerEndpoint),
      ("sqs_update_queue_url", optional c.queueUrl),
      ("fan_out_workers", toString c.workers),
      ("retry", retryPolicy c.retry),
      ("queue_batch_size", toString c.batchSize),
      ("scope", scope c.scope),
      ("app_host", Text.quote c.host),
      ("app_port", toString c.port),
      ("log_format", c.logFormat.name) ] false

/-- Describes the service. -/
def service (s : Service) : String :=
  part "AppDependencies"
    [("config", configuration s.configuration), ("executor", executor s.fanOut)] true

end CaseGrouping.Description
