import CaseGrouping.Configuration
import CaseGrouping.Round.Basic

/-! The service as it is set up: its settings, and one pool for all rounds.
-/

namespace CaseGrouping

/-- The settings with the pool that they ask for. -/
structure Service where
  configuration : Configuration
  fanOut : FanOut

namespace Service

/-- Sets the service up. -/
def make (configuration : Configuration) : Except FanOutError Service := do
  let fanOut ←
    FanOut.make configuration.workers configuration.retry configuration.scope.singleType
  return { configuration, fanOut }

/-- What rounds are carried out with. -/
def coordinator (s : Service) : Coordinator where
  scope := s.configuration.scope
  fanOut := s.fanOut
  batchSize := s.configuration.batchSize
  batchSize_pos := s.configuration.batchSize_pos

end Service

end CaseGrouping
