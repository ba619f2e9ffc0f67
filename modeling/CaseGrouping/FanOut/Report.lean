import CaseGrouping.FanOut.Pool

/-! What became of the writes that were sent through the pool: each is either applied or failed,
and both lists follow the order of the writes.
-/

namespace CaseGrouping

/-- The cases as they were answered, and the writes that failed. -/
structure FanOutReport where
  applied : List SingleCase := []
  failures : List Failure := []

namespace FanOutReport

/-- The number of writes accounted for. -/
def total (r : FanOutReport) : Nat :=
  r.applied.length + r.failures.length

/-- Every write was applied. -/
def isComplete (r : FanOutReport) : Bool :=
  r.failures.isEmpty

/-- The references of the cases that were written. -/
def appliedReferences (r : FanOutReport) : List CaseReference :=
  r.applied.map SingleCase.reference

/-- The report of two runs, one after the other. -/
def merge (r q : FanOutReport) : FanOutReport :=
  { applied := r.applied ++ q.applied, failures := r.failures ++ q.failures }

/-- The report of a pool in which all tasks are finished. -/
def ofPool (p : Pool) : FanOutReport :=
  let outcomes := p.tasks.filterMap Task.outcome?
  { applied := outcomes.filterMap Except.toOption
    failures := outcomes.filterMap fun
      | .ok _ => none
      | .error failure => some failure }

end FanOutReport

namespace FanOut

/-- Sends writes through the pool and waits for all of them. -/
def execute (f : FanOut) (writes : List CaseWrite) : StateM Stores FanOutReport := fun stores =>
  let start := Pool.ofWrites f writes stores
  let finish := start.run f (start.steps f)
  (.ofPool finish, finish.stores)

end FanOut

end CaseGrouping
