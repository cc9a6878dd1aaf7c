import TensorUnit.Bytes
import TensorUnit.Host.Error
import TensorUnit.Remote.Service

namespace TensorUnit.Host

open Remote

variable {σ : Type} [Service σ]

def requireUp : Action σ DriverError Unit := do
  let up ← Action.view isUp
  Action.require up (.remote .notUp)

def writeChunks (buffer : String) (offset : UInt64) (chunkSize index : Nat) :
    List (List UInt8) → Action σ DriverError Nat
  | [] => pure index
  | chunk :: chunks => do
    let position := offset + .ofNat (index * chunkSize)
    let _ ← (execute [.bufferWrite buffer position chunk]).mapError
      (.transfer buffer index position)
    writeChunks buffer offset chunkSize (index + 1) chunks

/-- Every chunk is a call of its own. The first one that fails ends the transfer, and the chunks
before it stay written. -/
def writeChunked (buffer : String) (offset : UInt64) (data : List UInt8) (chunkSize : Nat) :
    Action σ DriverError Nat := do
  requireUp
  let limit ← Action.view maxPayload
  Action.require (0 < chunkSize ∧ chunkSize ≤ limit) (.configuration (.chunkSize chunkSize limit))
  writeChunks buffer offset chunkSize 0 (Bytes.chunks chunkSize data)

end TensorUnit.Host
