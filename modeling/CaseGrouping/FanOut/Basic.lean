import CaseGrouping.RetryPolicy

/-! The settings of the pool through which writes reach the single cases.
A pool without workers or without attempts would never write, so there is none.
-/

namespace CaseGrouping

/-- Why there is no pool with given settings. -/
inductive FanOutError where
  | noWorkers
  | noAttempts
  deriving DecidableEq, Repr

/-- The wording of a pool error. -/
def FanOutError.message : FanOutError → String
  | .noWorkers => "fan-out worker count must be greater than 0"
  | .noAttempts => "fan-out attempt limit must be greater than 0"

/-- A pool: how many writes may be under way at once, when a write is tried again, and the case
type that is written to.
-/
structure FanOut where
  workers : Nat
  retry : RetryPolicy
  caseType : String
  workers_pos : 0 < workers
  attempts_pos : 0 < retry.maxAttempts

/-- The pool with given settings; a missing worker is found before a missing attempt. -/
def FanOut.make (workers : Nat) (retry : RetryPolicy) (caseType : String)
    : Except FanOutError FanOut :=
  if hw : workers = 0 then .error .noWorkers
  else if ha : retry.maxAttempts = 0 then .error .noAttempts
  else .ok ⟨workers, retry, caseType, Nat.pos_of_ne_zero hw, Nat.pos_of_ne_zero ha⟩

end CaseGrouping
