import TensorUnit.Architecture
import TensorUnit.Json.Document

namespace TensorUnit

instance : Document DataType where
  toJson dt := .text dt.name
  ofJson? := Document.choice? DataType.name [.fp16bp8, .fp32bp16]

namespace Architecture

def fieldNames : List String :=
  ["data_type", "array_size", "dram0_depth", "dram1_depth", "local_depth", "accumulator_depth",
   "simd_registers_depth", "stride0_depth", "stride1_depth", "number_of_threads",
   "thread_queue_depth"]

instance : Document Architecture where
  toJson arch := .record
    [("data_type", Document.toJson arch.dataType), ("array_size", Document.toJson arch.arraySize),
     ("dram0_depth", Document.toJson arch.dram0Depth),
     ("dram1_depth", Document.toJson arch.dram1Depth),
     ("local_depth", Document.toJson arch.localDepth),
     ("accumulator_depth", Document.toJson arch.accumulatorDepth),
     ("simd_registers_depth", Document.toJson arch.simdRegistersDepth),
     ("stride0_depth", Document.toJson arch.stride0Depth),
     ("stride1_depth", Document.toJson arch.stride1Depth),
     ("number_of_threads", Document.toJson arch.numberOfThreads),
     ("thread_queue_depth", Document.toJson arch.threadQueueDepth)]
  ofJson? json := do
    let parts ← Document.parts? false fieldNames json
    return {
      dataType := ← parts.get "data_type"
      arraySize := ← parts.get "array_size"
      dram0Depth := ← parts.get "dram0_depth"
      dram1Depth := ← parts.get "dram1_depth"
      localDepth := ← parts.get "local_depth"
      accumulatorDepth := ← parts.get "accumulator_depth"
      simdRegistersDepth := ← parts.get "simd_registers_depth"
      stride0Depth := ← parts.get "stride0_depth"
      stride1Depth := ← parts.get "stride1_depth"
      numberOfThreads := ← parts.get "number_of_threads"
      threadQueueDepth := ← parts.get "thread_queue_depth" }

end Architecture

end TensorUnit
