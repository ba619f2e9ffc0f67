import CaseGrouping.Duration

/-! Bounded retries with a pause that doubles from one attempt to the next.
-/

namespace CaseGrouping

/-- The attempts at one write, the first included, and the pause after the first of them. -/
structure RetryPolicy where
  maxAttempts : Nat := 3
  baseBackoff : Duration := .ofMillis 100
  deriving DecidableEq

namespace RetryPolicy

/-- A single attempt. -/
def noRetry : RetryPolicy :=
  { maxAttempts := 1, baseBackoff := .zero }

/-- The pause is doubled at most this often. -/
def greatestDoubling : Nat :=
  16

/-- The pause after a failed attempt, counting attempts from one. -/
def backoff (p : RetryPolicy) (attempt : Nat) : Duration :=
  p.baseBackoff.times (1 <<< UInt32.ofNat (min (attempt - 1) greatestDoubling))

end RetryPolicy

end CaseGrouping
