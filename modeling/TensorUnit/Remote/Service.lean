import TensorUnit.Action
import TensorUnit.Duration
import TensorUnit.Remote.Batch
import TensorUnit.Remote.Error

namespace TensorUnit.Remote

/-- A remote instance of the unit, as a host sees it: its states and the ways to reach it. -/
class Service (σ : Type) where
  up : Action σ RemoteError Unit
  down : Action σ RemoteError Unit
  isUp : σ → Bool
  maxPayload : σ → Nat
  execute : Batch → Action σ RemoteError (List Response)
  /-- The polls behind its first one that a wait has time for, by its timeout and by the pause
  between two polls. The time goes by in the calls and is not determined by anything else. -/
  patience : Duration → Duration → σ → Nat

/-- The patience where every poll needs a microsecond. -/
def steadyPatience (timeout pause : Duration) : Nat :=
  (timeout.toNanos + pause.toNanos - 1) / (1000 + pause.toNanos)

def defaultMaxPayload : Nat := 2 ^ 20

export Service (up down isUp maxPayload execute patience)

end TensorUnit.Remote
