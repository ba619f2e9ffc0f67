import CaseGrouping.Round.Basic

/-! Propagation of the writes of a round to the single cases, through the pool or the queue.
On both ways all cases leave a multiple before any case is written otherwise.
-/

namespace CaseGrouping

/-- The writes of a round: those by which cases leave, and all others. -/
structure PropagationPlan where
  detach : List CaseWrite := []
  write : List CaseWrite := []
  deriving DecidableEq

namespace PropagationPlan

/-- The number of writes. -/
def size (p : PropagationPlan) : Nat :=
  p.detach.length + p.write.length

/-- There is nothing to write. -/
def isEmpty (p : PropagationPlan) : Bool :=
  p.detach.isEmpty && p.write.isEmpty

end PropagationPlan

/-- The cases that were written or whose jobs were taken, the failed writes, and what the queue
answered.
-/
structure Propagation where
  written : List CaseReference := []
  failures : List Failure := []
  acknowledgements : List QueueAck := []

/-- A change with the cases it is addressed to. -/
structure ChangeGroup where
  change : ChangeSet
  cases : List CaseReference

namespace ChangeGroup

/-- Adds a write to the group with the same change, or as a group of its own at the end. -/
def add (groups : List ChangeGroup) (w : CaseWrite) : List ChangeGroup :=
  match groups with
  | [] => [⟨w.change, [w.case]⟩]
  | g :: rest =>
      if g.change.contentKey = w.change.contentKey then
        { g with cases := g.cases ++ [w.case] } :: rest
      else g :: add rest w

/-- Writes grouped by their change, in the order in which the changes come first. -/
def ofWrites (writes : List CaseWrite) : List ChangeGroup :=
  writes.foldl add []

end ChangeGroup

/-- Cuts a list into pieces of a size, the last of which may be shorter. -/
def piecesOf (size : Nat) (items : List α) : List (List α) :=
  if h : size = 0 ∨ items = [] then []
  else
    have : (items.drop size).length < items.length := by
      have := List.length_pos_iff.2 fun hn => h (.inr hn)
      simp only [List.length_drop]
      omega
    items.take size :: piecesOf size (items.drop size)
termination_by items.length

/-- The jobs that carry writes: one change each, and at most `batchSize` cases. -/
def buildJobs (multiple : MultipleReference) (baseVersion : Option UInt64)
    (writes : List CaseWrite) (batchSize : Nat) (createdAt : Timestamp) : List Job :=
  (ChangeGroup.ofWrites writes).flatMap fun g =>
    (piecesOf batchSize g.cases).map fun cases =>
      .make multiple baseVersion cases g.change createdAt

namespace Coordinator

/-- Sends a plan through the pool: what leaves first, and the rest when that is through. -/
def fanOutPlan (k : Coordinator) (plan : PropagationPlan) : StateM Stores Propagation := do
  let left ← k.fanOut.execute plan.detach
  let other ← k.fanOut.execute plan.write
  let report := left.merge other
  return { written := report.appliedReferences, failures := report.failures }

/-- Hands jobs to the queue one by one; a job that is refused ends the round, and the jobs that
were taken before it stay with the consumer.
-/
def enqueueAll : List Job → Propagation → Round Propagation
  | [], done => return done
  | job :: rest, done => do
      match ← Round.attempt (Stores.enqueue job) with
      | .error cause => throw (.queueSubmission job.id cause)
      | .ok ack =>
          enqueueAll rest
            { done with
              written := done.written ++ job.cases
              acknowledgements := done.acknowledgements ++ [ack] }

/-- Hands a plan to the queue as jobs. -/
def enqueuePlan (k : Coordinator) (multiple : MultipleReference) (baseVersion : Option UInt64)
    (plan : PropagationPlan) : Round Propagation := do
  let now ← Round.attempt Stores.now
  let jobs (writes : List CaseWrite) := buildJobs multiple baseVersion writes k.batchSize now
  enqueueAll (jobs plan.detach ++ jobs plan.write) {}

/-- Propagates a plan for a multiple whose record was read at a version. -/
def propagate (k : Coordinator) (multiple : MultipleReference) (baseVersion : Option UInt64)
    (plan : PropagationPlan) (mode : PropagationMode) : Round Propagation :=
  match mode with
  | .synchronousFanOut => Round.attempt (k.fanOutPlan plan)
  | .durableQueue => k.enqueuePlan multiple baseVersion plan

end Coordinator

end CaseGrouping
