import TensorUnit.Architecture
import TensorUnit.Tcu.Opcode

namespace TensorUnit

def bitsFor (depth : Nat) : Nat :=
  if depth ≤ 1 then 0 else (depth - 1).log2 + 1

def roundToByte (bits : Nat) : Nat :=
  (bits + 7) / 8 * 8

namespace Tcu

/-- The widths in an instruction word. From the lowest bits it has operand 0, operand 1, operand 2,
the flags and the opcode. Operand 0 addresses the scratchpad or the accumulator, operand 1 any
memory, and operand 2 counts rows; each is wide enough for the largest address that it carries
beside a stride, and is rounded up to whole bytes. -/
structure Layout where
  op0AddressBits : Nat
  op0StrideBits : Nat
  op0Bits : Nat
  op1AddressBits : Nat
  op1StrideBits : Nat
  op1Bits : Nat
  op2AddressBits : Nat
  op2Bits : Nat
  deriving DecidableEq, Repr

namespace Layout

def ofDepths (arch : Architecture) : Layout :=
  let rows space := bitsFor (arch.depth space).toNat
  let inner := max (rows .scratchpad) (rows .accumulator)
  let outer := max inner (max (rows .dram0) (rows .dram1))
  let stride0 := bitsFor arch.stride0Depth.toNat
  let stride1 := bitsFor arch.stride1Depth.toNat
  { op0AddressBits := inner
    op0StrideBits := stride0
    op0Bits := roundToByte (inner + stride0)
    op1AddressBits := outer
    op1StrideBits := stride1
    op1Bits := roundToByte (outer + stride1)
    op2AddressBits := inner
    op2Bits := roundToByte inner }

def ofArchitecture (arch : Architecture) : Except SpecError Layout := do
  arch.validate
  return ofDepths arch

def headerBits : Nat :=
  flagsBits + Opcode.bits

def instructionBits (l : Layout) : Nat :=
  l.op0Bits + l.op1Bits + l.op2Bits + headerBits

def instructionBytes (l : Layout) : Nat :=
  l.instructionBits / 8

def op0PadBits (l : Layout) : Nat :=
  l.op0Bits - l.op0AddressBits - l.op0StrideBits

def op1PadBits (l : Layout) : Nat :=
  l.op1Bits - l.op1AddressBits - l.op1StrideBits

def op2PadBits (l : Layout) : Nat :=
  l.op2Bits - l.op2AddressBits

def text (l : Layout) : String :=
  s!"instruction {l.instructionBits} bits (op0 {l.op0Bits} = {l.op0AddressBits}+{l.op0StrideBits}, "
    ++ s!"op1 {l.op1Bits} = {l.op1AddressBits}+{l.op1StrideBits}, "
    ++ s!"op2 {l.op2Bits} = {l.op2AddressBits}, header {headerBits})"

end Layout

end Tcu

end TensorUnit
