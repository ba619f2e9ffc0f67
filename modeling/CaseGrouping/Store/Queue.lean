import CaseGrouping.Job
import CaseGrouping.QueueAck
import CaseGrouping.Store.Error

/-! The queue of update jobs. A job that was taken belongs to the consumer.
-/

namespace CaseGrouping

/-- The jobs in the order of arrival, the number of the last message, and the errors that the
next jobs meet once a number of them was spared.
-/
structure UpdateQueue where
  jobs : List Job := []
  sequence : Nat := 0
  faults : List QueueError := []
  spared : Nat := 0

namespace UpdateQueue

/-- Takes a job, or refuses it with the first of the errors set up. -/
def enqueue (q : UpdateQueue) (job : Job) : Except QueueError QueueAck × UpdateQueue :=
  match q.faults, q.spared with
  | e :: rest, 0 => (.error e, { q with faults := rest })
  | _, _ =>
      let n := q.sequence + 1
      (.ok ⟨job.id, s!"in-memory-{n}"⟩,
        { q with jobs := q.jobs ++ [job], sequence := n, spared := q.spared - 1 })

/-- Hands all jobs to the consumer. -/
def drain (q : UpdateQueue) : List Job × UpdateQueue :=
  (q.jobs, { q with jobs := [] })

end UpdateQueue

end CaseGrouping
