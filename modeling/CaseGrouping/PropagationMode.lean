import CaseGrouping.Json.Decode

/-! How the writes of a round reach the single cases.
-/

namespace CaseGrouping

/-- Writes go through the pool of workers and are waited for, or are handed to the queue. -/
inductive PropagationMode where
  | synchronousFanOut
  | durableQueue
  deriving DecidableEq, Repr

namespace PropagationMode

/-- The word for a mode. -/
def word : PropagationMode → String
  | .synchronousFanOut => "synchronous_fan_out"
  | .durableQueue => "durable_queue"

/-- The mode for a word. -/
def ofWord? (s : String) : Option PropagationMode :=
  [PropagationMode.synchronousFanOut, .durableQueue].find? (·.word == s)

instance : Json.Form PropagationMode where
  toValue m := .string m.word
  decoder := Json.Decode.named ofWord?

end PropagationMode

end CaseGrouping
