import TensorUnit.Duration

namespace TensorUnit.Host

structure FlushPolicy where
  timeout : Duration
  pollInterval : Duration
  deriving DecidableEq, Repr

namespace FlushPolicy

def default : FlushPolicy :=
  ⟨.ofSecs 10, .zero⟩

end FlushPolicy

end TensorUnit.Host
