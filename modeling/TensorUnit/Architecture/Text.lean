import TensorUnit.Architecture

namespace TensorUnit

def DataType.tag : DataType → String
  | fp16bp8 => "Fp16Bp8"
  | fp32bp16 => "Fp32Bp16"

def Architecture.text (arch : Architecture) : String :=
  "Architecture \x7b data_type: " ++ arch.dataType.tag ++ ", "
    ++ s!"array_size: {arch.arraySize}, dram0_depth: {arch.dram0Depth}, "
    ++ s!"dram1_depth: {arch.dram1Depth}, local_depth: {arch.localDepth}, "
    ++ s!"accumulator_depth: {arch.accumulatorDepth}, "
    ++ s!"simd_registers_depth: {arch.simdRegistersDepth}, "
    ++ s!"stride0_depth: {arch.stride0Depth}, stride1_depth: {arch.stride1Depth}, "
    ++ s!"number_of_threads: {arch.numberOfThreads}, "
    ++ s!"thread_queue_depth: {arch.threadQueueDepth}" ++ " \x7d"

end TensorUnit
