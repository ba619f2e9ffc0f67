import CaseGrouping.Json.Record
import CaseGrouping.Uuid

/-! What a queue answers when it has taken a job.
-/

namespace CaseGrouping

/-- The job that was taken, and the identifier the queue gave to the message. -/
structure QueueAck where
  job : Uuid
  message : String
  deriving DecidableEq

namespace QueueAck

/-- The fields of the written form. -/
def record : Json.Record QueueAck :=
  .map (fun (job, message) => { job, message }) <|
    .both (.required "job_id" Json.Form.decoder) <|
    .required "message_id" Json.Decode.string

instance : Json.Form QueueAck where
  toValue a := .object [("job_id", Json.Form.toValue a.job), ("message_id", .string a.message)]
  decoder := record.decoder

end QueueAck

end CaseGrouping
