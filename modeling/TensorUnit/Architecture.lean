import TensorUnit.AddressUnits

namespace TensorUnit

structure Architecture where
  dataType : DataType
  arraySize : UInt64
  dram0Depth : UInt64
  dram1Depth : UInt64
  localDepth : UInt64
  accumulatorDepth : UInt64
  simdRegistersDepth : UInt64
  stride0Depth : UInt64
  stride1Depth : UInt64
  numberOfThreads : UInt64
  threadQueueDepth : UInt64
  deriving DecidableEq, Repr

namespace Architecture

/-- The unit deployed on the PYNQ-Z1 board. -/
def pynqZ1 : Architecture where
  dataType := .fp16bp8
  arraySize := 8
  dram0Depth := 1048576
  dram1Depth := 1048576
  localDepth := 8192
  accumulatorDepth := 2048
  simdRegistersDepth := 1
  stride0Depth := 8
  stride1Depth := 8
  numberOfThreads := 1
  threadQueueDepth := 8

def positiveParameters (arch : Architecture) : List (String × UInt64) :=
  [("array_size", arch.arraySize), ("dram0_depth", arch.dram0Depth),
   ("dram1_depth", arch.dram1Depth), ("local_depth", arch.localDepth),
   ("accumulator_depth", arch.accumulatorDepth), ("stride0_depth", arch.stride0Depth),
   ("stride1_depth", arch.stride1Depth), ("number_of_threads", arch.numberOfThreads),
   ("thread_queue_depth", arch.threadQueueDepth)]

/-- The parameters that must be powers of two: a stride is stored as its logarithm. -/
def strideParameters (arch : Architecture) : List (String × UInt64) :=
  [("stride0_depth", arch.stride0Depth), ("stride1_depth", arch.stride1Depth)]

def fault? (arch : Architecture) : Option ArchitectureFault :=
  match arch.positiveParameters.find? fun p => p.2 = 0 with
  | some (name, _) => some (.zero name)
  | none =>
    match arch.strideParameters.find? fun p => 2 ^ p.2.toNat.log2 ≠ p.2.toNat with
    | some (name, value) => some (.notPowerOfTwo name value)
    | none => none

def validate (arch : Architecture) : Except SpecError Unit :=
  match arch.fault? with
  | some fault => .error (.invalidArchitecture fault)
  | none => .ok ()

def depth (arch : Architecture) : Space → UInt64
  | .scratchpad => arch.localDepth
  | .dram0 => arch.dram0Depth
  | .dram1 => arch.dram1Depth
  | .accumulator => arch.accumulatorDepth

def units (arch : Architecture) : AddressUnits where
  arraySize := arch.arraySize
  scalarBytes := UInt64.ofNat arch.dataType.scalarBytes

def rowBytes (arch : Architecture) : Nat :=
  arch.arraySize.toNat * arch.dataType.scalarBytes

def rowBytes? (arch : Architecture) : Option UInt64 :=
  Exact.ofNat? arch.rowBytes

/-- The end of a range, or the largest number when it lies beyond that. -/
def rangeEnd (start count : UInt64) : UInt64 :=
  (Exact.add? start count).getD (.ofNat (2 ^ 64 - 1))

/-- Fails unless a range of rows ends within the memory. -/
def checkRows (arch : Architecture) (space : Space) (start rows : UInt64) :
    Except SpecError Unit :=
  let stop := rangeEnd start rows
  if arch.depth space < stop then .error (.outOfRange space start stop (arch.depth space))
  else .ok ()

end Architecture

end TensorUnit
