import TensorUnit.DecodeError
import TensorUnit.Tcu.Encode

namespace TensorUnit.Tcu

def op0Of (set : FieldSet) : StridedAddress :=
  ⟨.ofNat (set.value "op0_address"), .ofNat (set.value "op0_stride")⟩

def op1Of (set : FieldSet) : StridedAddress :=
  ⟨.ofNat (set.value "op1_address"), .ofNat (set.value "op1_stride")⟩

def Instruction.ofFields (set : FieldSet) : Opcode → Except DecodeError Instruction
  | .noOp => .ok .noOp
  | .matMul =>
    let flags := set.value "flags"
    .ok (.matMul (flags.testBit 0) (flags.testBit 1) (op0Of set) (op1Of set)
      (.ofNat (set.value "op2_address")))
  | .dataMove =>
    match MoveFlag.ofCode? (set.value "flags") with
    | some flag => .ok (.dataMove flag (op0Of set) (op1Of set) (.ofNat (set.value "op2_address")))
    | none => .error (.invalidEncoding (.moveFlag (set.value "flags")))
  | .loadWeights =>
    .ok (.loadWeights ((set.value "flags").testBit 0) (op0Of set)
      (.ofNat (set.value "op1_address")))
  | .configure =>
    match Register.ofCode? (set.value "register") with
    | some register => .ok (.configure register (.ofNat (set.value "value")))
    | none => .error (.invalidEncoding (.register (set.value "register")))
  | .simd => .error (.invalidEncoding .simd)

def decode (layout : Layout) (word : List UInt8) : Except DecodeError Instruction := do
  if word.length ≠ layout.instructionBytes then
    throw (.truncated word.length layout.instructionBytes)
  let code ← Word.extract word (layout.instructionBits - Opcode.bits) Opcode.bits
  match Opcode.ofCode? code with
  | none => throw (.unknownOpcode code)
  | some opcode => Instruction.ofFields (← Word.unpack word (← template layout opcode)) opcode

end TensorUnit.Tcu
