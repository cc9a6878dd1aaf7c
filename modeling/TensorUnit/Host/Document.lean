import TensorUnit.Architecture.Document
import TensorUnit.Host.Config
import TensorUnit.Host.Model

namespace TensorUnit

open Document (toJson)

/-- Both parts must be there and nothing else. Whole seconds among the nanoseconds are carried. -/
instance : Document Duration where
  toJson d := .record [("secs", toJson d.secs), ("nanos", toJson d.nanos)]
  ofJson? json := do
    let parts ← Document.parts? true ["secs", "nanos"] json
    Duration.ofParts? (← parts.get "secs") (← parts.get "nanos")

namespace Host

instance : Document FlushPolicy where
  toJson p := .record [("timeout", toJson p.timeout), ("poll_interval", toJson p.pollInterval)]
  ofJson? json := do
    let parts ← Document.parts? false ["timeout", "poll_interval"] json
    let d := FlushPolicy.default
    return ⟨← parts.getD "timeout" d.timeout, ← parts.getD "poll_interval" d.pollInterval⟩

instance : Document Config where
  toJson c := .record
    [("dram0_buffer", toJson c.dram0Buffer), ("dram1_buffer", toJson c.dram1Buffer),
     ("dma_channel", toJson c.dmaChannel), ("staging_buffer", toJson c.stagingBuffer),
     ("chunk_size", toJson c.chunkSize), ("flush", toJson c.flush),
     ("dma_wait_timeout", toJson c.dmaWaitTimeout), ("device_timeout", toJson c.deviceTimeout)]
  ofJson? json := do
    let parts ← Document.parts? false
      ["dram0_buffer", "dram1_buffer", "dma_channel", "staging_buffer", "chunk_size", "flush",
       "dma_wait_timeout", "device_timeout"] json
    let d := Config.default
    return {
      dram0Buffer := ← parts.getD "dram0_buffer" d.dram0Buffer
      dram1Buffer := ← parts.getD "dram1_buffer" d.dram1Buffer
      dmaChannel := ← parts.getD "dma_channel" d.dmaChannel
      stagingBuffer := ← parts.getD "staging_buffer" d.stagingBuffer
      chunkSize := ← parts.getD "chunk_size" d.chunkSize
      flush := ← parts.getD "flush" d.flush
      dmaWaitTimeout := ← parts.getD "dma_wait_timeout" d.dmaWaitTimeout
      deviceTimeout := ← parts.getD "device_timeout" d.deviceTimeout }

instance : Document ProgramRef where
  toJson p := .record [("file_name", toJson p.fileName), ("size", toJson p.size)]
  ofJson? json := do
    let parts ← Document.parts? false ["file_name", "size"] json
    return ⟨← parts.get "file_name", ← parts.get "size"⟩

instance : Document ConstRef where
  toJson c := .record
    [("file_name", toJson c.fileName), ("base", toJson c.base), ("size", toJson c.size)]
  ofJson? json := do
    let parts ← Document.parts? false ["file_name", "base", "size"] json
    return ⟨← parts.get "file_name", ← parts.get "base", ← parts.get "size"⟩

instance : Document Placement where
  toJson r := .record [("name", toJson r.name), ("base", toJson r.base), ("size", toJson r.size)]
  ofJson? json := do
    let parts ← Document.parts? false ["name", "base", "size"] json
    return ⟨← parts.get "name", ← parts.get "base", ← parts.get "size"⟩

instance : Document Model where
  toJson m := .record
    [("name", toJson m.name), ("prog", toJson m.prog), ("consts", toJson m.consts),
     ("inputs", toJson m.inputs), ("outputs", toJson m.outputs), ("arch", toJson m.arch),
     ("load_consts_to_local", toJson m.loadConstsToLocal)]
  ofJson? json := do
    let parts ← Document.parts? false
      ["name", "prog", "consts", "inputs", "outputs", "arch", "load_consts_to_local"] json
    return {
      name := ← parts.getD "name" ""
      prog := ← parts.get "prog"
      consts := ← parts.getD "consts" []
      inputs := ← parts.getD "inputs" []
      outputs := ← parts.getD "outputs" []
      arch := ← parts.get "arch"
      loadConstsToLocal := ← parts.getD "load_consts_to_local" false }

def Config.parse (text : String) : Except DriverError Config :=
  match Document.parse? text with
  | some config => .ok config
  | none => .error .malformed

def Model.parse (text : String) : Except DriverError Model :=
  match Document.parse? text with
  | some model => .ok model
  | none => .error .malformed

end Host

end TensorUnit
