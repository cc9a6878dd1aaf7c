import TensorUnit.Space

namespace TensorUnit.Tcu

inductive Opcode where
  | noOp
  | matMul
  | dataMove
  | loadWeights
  | simd
  | configure
  deriving DecidableEq, Repr

namespace Opcode

def bits : Nat := 4

def all : List Opcode :=
  [noOp, matMul, dataMove, loadWeights, simd, configure]

def code : Opcode → Nat
  | noOp => 0x0
  | matMul => 0x1
  | dataMove => 0x2
  | loadWeights => 0x3
  | simd => 0x4
  | configure => 0xF

def ofCode? (code : Nat) : Option Opcode :=
  all.find? fun op => op.code = code

def mnemonic : Opcode → String
  | noOp => "noop"
  | matMul => "matmul"
  | dataMove => "datamove"
  | loadWeights => "loadweights"
  | simd => "simd"
  | configure => "configure"

end Opcode

def flagsBits : Nat := 4

inductive MoveFlag where
  | dram0ToLocal
  | localToDram0
  | dram1ToLocal
  | localToDram1
  | accumulatorToLocal
  | localToAccumulator
  | localToAccumulatorAccumulate
  deriving DecidableEq, Repr

namespace MoveFlag

def all : List MoveFlag :=
  [dram0ToLocal, localToDram0, dram1ToLocal, localToDram1, accumulatorToLocal,
   localToAccumulator, localToAccumulatorAccumulate]

def code : MoveFlag → Nat
  | dram0ToLocal => 0x0
  | localToDram0 => 0x1
  | dram1ToLocal => 0x2
  | localToDram1 => 0x3
  | accumulatorToLocal => 0xC
  | localToAccumulator => 0xD
  | localToAccumulatorAccumulate => 0xF

def ofCode? (code : Nat) : Option MoveFlag :=
  all.find? fun flag => flag.code = code

def remote : MoveFlag → Space
  | dram0ToLocal | localToDram0 => .dram0
  | dram1ToLocal | localToDram1 => .dram1
  | accumulatorToLocal | localToAccumulator | localToAccumulatorAccumulate => .accumulator

def isToLocal : MoveFlag → Bool
  | dram0ToLocal | dram1ToLocal | accumulatorToLocal => true
  | _ => false

def source (flag : MoveFlag) : Space :=
  if flag.isToLocal then flag.remote else .scratchpad

def destination (flag : MoveFlag) : Space :=
  if flag.isToLocal then .scratchpad else flag.remote

def mnemonic : MoveFlag → String
  | dram0ToLocal => "dram0->local"
  | localToDram0 => "local->dram0"
  | dram1ToLocal => "dram1->local"
  | localToDram1 => "local->dram1"
  | accumulatorToLocal => "acc->local"
  | localToAccumulator => "local->acc"
  | localToAccumulatorAccumulate => "local->acc+"

end MoveFlag

/-- The registers that Configure writes. The DRAM offsets are counted in blocks. -/
inductive Register where
  | dram0AddressOffset
  | dram0CacheBehaviour
  | dram1AddressOffset
  | dram1CacheBehaviour
  | timeout
  | tracepoint
  | programCounter
  | sampleInterval
  deriving DecidableEq, Repr

namespace Register

def all : List Register :=
  [dram0AddressOffset, dram0CacheBehaviour, dram1AddressOffset, dram1CacheBehaviour, timeout,
   tracepoint, programCounter, sampleInterval]

def code : Register → Nat
  | dram0AddressOffset => 0x0
  | dram0CacheBehaviour => 0x1
  | dram1AddressOffset => 0x4
  | dram1CacheBehaviour => 0x5
  | timeout => 0x8
  | tracepoint => 0x9
  | programCounter => 0xA
  | sampleInterval => 0xB

def ofCode? (code : Nat) : Option Register :=
  all.find? fun register => register.code = code

def name : Register → String
  | dram0AddressOffset => "dram0_offset"
  | dram0CacheBehaviour => "dram0_cache"
  | dram1AddressOffset => "dram1_offset"
  | dram1CacheBehaviour => "dram1_cache"
  | timeout => "timeout"
  | tracepoint => "tracepoint"
  | programCounter => "program_counter"
  | sampleInterval => "sample_interval"

end Register

end TensorUnit.Tcu
