import CaseGrouping.Job
import CaseGrouping.QueueAck
import CaseGrouping.Remote.Exchange
import CaseGrouping.Store.Error

/-! The queue of update jobs behind a message broker: one message for each job.
A queue that keeps order gets the multiple as the group of a message and the job as the mark by
which a repeated message is dropped.
-/

namespace CaseGrouping.Remote

/-- A queue of a message broker. -/
structure Broker where
  queueUrl : String

namespace Broker

/-- The queue keeps the order of the messages of a group. -/
def isFifo (b : Broker) : Bool :=
  b.queueUrl.endsWith ".fifo"

/-- The group and the mark of a message, for a queue that keeps order. -/
def ordering (b : Broker) (job : Job) : List (String × Json.Value) :=
  if b.isFifo then
    [ ("MessageDeduplicationId", .string job.id.text),
      ("MessageGroupId", .string job.multiple.text) ]
  else []

/-- The message that carries a job. -/
def message (b : Broker) (job : Job) : Json.Value :=
  .object <|
    [("QueueUrl", .string b.queueUrl), ("MessageBody", .string (Json.text job))]
      ++ b.ordering job

/-- The body of the answer to a message. -/
def answered : Json.Record (Option String) :=
  .elective "MessageId" Json.Decode.string

/-- Hands a job to the queue; an answer that is no readable success is a refusal. -/
def enqueue (b : Broker) (job : Job) : RemoteCall QueueError QueueAck where
  request :=
    { method := "POST"
      url := b.queueUrl
      headers :=
        [ ("content-type", "application/x-amz-json-1.0"),
          ("x-amz-target", "AmazonSQS.SendMessage") ]
      body := some (b.message job).text }
  read
    | .timedOut => .error (.transport "operation timed out")
    | .failed detail => .error (.transport detail)
    | .answered a =>
        if isSuccess a.status then
          match Json.decodeText answered.decoder a.body with
          | .ok id => .ok ⟨job.id, id.getD ""⟩
          | .error _ => .error (.rejected a.detail)
        else .error (.rejected a.detail)

end Broker

end CaseGrouping.Remote
