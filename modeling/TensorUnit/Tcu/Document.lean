import TensorUnit.Json.Document
import TensorUnit.Tcu.Instruction

namespace TensorUnit.Tcu

open Document (toJson)

def Opcode.variant : Opcode → String
  | noOp => "NoOp"
  | matMul => "MatMul"
  | dataMove => "DataMove"
  | loadWeights => "LoadWeights"
  | simd => "Simd"
  | configure => "Configure"

instance : Document Opcode where
  toJson op := .text op.variant
  ofJson? := Document.choice? Opcode.variant Opcode.all

def MoveFlag.variant : MoveFlag → String
  | dram0ToLocal => "Dram0ToLocal"
  | localToDram0 => "LocalToDram0"
  | dram1ToLocal => "Dram1ToLocal"
  | localToDram1 => "LocalToDram1"
  | accumulatorToLocal => "AccumulatorToLocal"
  | localToAccumulator => "LocalToAccumulator"
  | localToAccumulatorAccumulate => "LocalToAccumulatorAccumulate"

instance : Document MoveFlag where
  toJson flag := .text flag.variant
  ofJson? := Document.choice? MoveFlag.variant MoveFlag.all

def Register.variant : Register → String
  | dram0AddressOffset => "Dram0AddressOffset"
  | dram0CacheBehaviour => "Dram0CacheBehaviour"
  | dram1AddressOffset => "Dram1AddressOffset"
  | dram1CacheBehaviour => "Dram1CacheBehaviour"
  | timeout => "Timeout"
  | tracepoint => "Tracepoint"
  | programCounter => "ProgramCounter"
  | sampleInterval => "SampleInterval"

instance : Document Register where
  toJson register := .text register.variant
  ofJson? := Document.choice? Register.variant Register.all

instance : Document StridedAddress where
  toJson a := .record [("address", toJson a.address), ("stride", toJson a.stride)]
  ofJson? json := do
    let parts ← Document.parts? false ["address", "stride"] json
    return ⟨← parts.get "address", ← parts.get "stride"⟩

namespace Instruction

def parts : Instruction → Document.Parts
  | noOp => []
  | matMul accumulate zeroes scratchpad accumulator size =>
    [("accumulate", toJson accumulate), ("zeroes", toJson zeroes), ("local", toJson scratchpad),
     ("accumulator", toJson accumulator), ("size", toJson size)]
  | dataMove flag scratchpad address size =>
    [("flag", toJson flag), ("local", toJson scratchpad), ("address", toJson address),
     ("size", toJson size)]
  | loadWeights zeroes scratchpad size =>
    [("zeroes", toJson zeroes), ("local", toJson scratchpad), ("size", toJson size)]
  | configure register value => [("register", toJson register), ("value", toJson value)]

def toDocument : Instruction → Json
  | noOp => .text Opcode.noOp.variant
  | instr => .record [(instr.opcode.variant, .record instr.parts)]

def ofMatMul? (data : Json) : Option Instruction := do
  let parts ← Document.parts? false ["accumulate", "zeroes", "local", "accumulator", "size"] data
  return .matMul (← parts.get "accumulate") (← parts.get "zeroes") (← parts.get "local")
    (← parts.get "accumulator") (← parts.get "size")

def ofDataMove? (data : Json) : Option Instruction := do
  let parts ← Document.parts? false ["flag", "local", "address", "size"] data
  return .dataMove (← parts.get "flag") (← parts.get "local") (← parts.get "address")
    (← parts.get "size")

def ofLoadWeights? (data : Json) : Option Instruction := do
  let parts ← Document.parts? false ["zeroes", "local", "size"] data
  return .loadWeights (← parts.get "zeroes") (← parts.get "local") (← parts.get "size")

def ofConfigure? (data : Json) : Option Instruction := do
  let parts ← Document.parts? false ["register", "value"] data
  return .configure (← parts.get "register") (← parts.get "value")

def ofDocument? (json : Json) : Option Instruction :=
  match Document.variant? json with
  | some ("NoOp", none) | some ("NoOp", some .null) => some .noOp
  | some ("MatMul", some data) => ofMatMul? data
  | some ("DataMove", some data) => ofDataMove? data
  | some ("LoadWeights", some data) => ofLoadWeights? data
  | some ("Configure", some data) => ofConfigure? data
  | _ => none

instance : Document Instruction where
  toJson := toDocument
  ofJson? := ofDocument?

end Instruction

end TensorUnit.Tcu
