import CaseGrouping.FanOut.Report
import CaseGrouping.PropagationMode

/-! What rounds are carried out with, and the calls of a round that may end it.
-/

namespace CaseGrouping

/-- A part of a round: it works on the stores and may end the round. What has been written by
then stays written.
-/
abbrev Round :=
  ExceptT RoundError (StateM Stores)

namespace Round

/-- A call whose error does not end the round. -/
def attempt (call : StateM Stores α) : Round α :=
  ExceptT.lift call

/-- A call to the store of multiples whose error ends the round. -/
def multiples (call : StateM Stores (Except MultipleStoreError α)) : Round α :=
  ExceptT.mk do return (← call).mapError RoundError.ofMultipleStore

/-- A check that ends the round with a validation error. -/
def check (verdict : Except ValidationError α) : Round α :=
  ExceptT.mk (return verdict.mapError .validation)

/-- Ends the round with a validation error. -/
def reject (e : ValidationError) : Round α :=
  throw (.validation e)

end Round

/-- What rounds are carried out with: the scope of all calls, the pool, and the greatest number
of cases of an update job.
-/
structure Coordinator where
  scope : CaseScope
  fanOut : FanOut
  batchSize : Nat
  batchSize_pos : 0 < batchSize

end CaseGrouping
