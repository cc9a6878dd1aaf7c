import TensorUnit.Field
import TensorUnit.Tcu.Instruction
import TensorUnit.Tcu.Layout

namespace TensorUnit.Tcu

/-- Configure puts a register in the place of operand 0 and a value in the place of operand 1. -/
def template (layout : Layout) (opcode : Opcode) : Except EncodeError FieldSet :=
  let operands : List Field :=
    match opcode with
    | .configure => [⟨"register", layout.op0Bits, 0⟩, ⟨"value", layout.op1Bits, 0⟩]
    | _ =>
      [⟨"op0_address", layout.op0AddressBits, 0⟩, ⟨"op0_stride", layout.op0StrideBits, 0⟩,
       ⟨"op0_pad", layout.op0PadBits, 0⟩,
       ⟨"op1_address", layout.op1AddressBits, 0⟩, ⟨"op1_stride", layout.op1StrideBits, 0⟩,
       ⟨"op1_pad", layout.op1PadBits, 0⟩]
  FieldSet.ofFields (operands ++
    [⟨"op2_address", layout.op2AddressBits, 0⟩, ⟨"op2_pad", layout.op2PadBits, 0⟩,
     ⟨"flags", flagsBits, 0⟩, ⟨"opcode", Opcode.bits, opcode.code⟩])

def StridedAddress.op0 (a : StridedAddress) : List (String × Nat) :=
  [("op0_address", a.address.toNat), ("op0_stride", a.stride.toNat)]

def StridedAddress.op1 (a : StridedAddress) : List (String × Nat) :=
  [("op1_address", a.address.toNat), ("op1_stride", a.stride.toNat)]

namespace Instruction

/-- The fields that an instruction sets and their values, in the order in which they are checked. -/
def operands : Instruction → List (String × Nat)
  | noOp => []
  | matMul _ _ scratchpad accumulator size =>
    scratchpad.op0 ++ accumulator.op1 ++ [("op2_address", size.toNat)]
  | dataMove _ scratchpad address size =>
    scratchpad.op0 ++ address.op1 ++ [("op2_address", size.toNat)]
  | loadWeights _ scratchpad size => scratchpad.op0 ++ [("op1_address", size.toNat)]
  | configure register value => [("register", register.code), ("value", value.toNat)]

def fields (layout : Layout) (instr : Instruction) : Except EncodeError FieldSet := do
  let set ← template layout instr.opcode
  set.setAll (("flags", instr.flags) :: instr.operands)

def encode (layout : Layout) (instr : Instruction) : Except EncodeError (List UInt8) := do
  (← instr.fields layout).pack layout.instructionBits

end Instruction

def assemble (layout : Layout) (program : List Instruction) : Except EncodeError (List UInt8) := do
  return (← program.mapM (·.encode layout)).flatten

end TensorUnit.Tcu
