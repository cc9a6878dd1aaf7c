import TensorUnit.Json.Document
import TensorUnit.Sim.Simulator

namespace TensorUnit.Sim

/-- The settings with those of a document in the place of the old ones. A limit that is null is
none. -/
def Config.override? (c : Config) (json : Json) : Option Config := do
  let parts ← Document.parts? false
    ["instructions_per_call", "stall", "fail_buffer_write_at", "max_payload", "base_address"] json
  let limit (name : String) (old : Option Nat) : Option (Option Nat) :=
    match parts.lookup name with
    | none => some old
    | some .null => some none
    | some json => (Document.natBelow? UInt64.size json).map some
  return {
    instructionsPerCall := ← limit "instructions_per_call" c.instructionsPerCall
    stall := ← parts.getD "stall" c.stall
    failBufferWriteAt := ← limit "fail_buffer_write_at" c.failBufferWriteAt
    maxPayload := (← parts.getD "max_payload" (UInt64.ofNat c.maxPayload)).toNat
    baseAddress := ← parts.getD "base_address" c.baseAddress }

end TensorUnit.Sim
