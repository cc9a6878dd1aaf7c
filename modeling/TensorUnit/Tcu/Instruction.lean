import TensorUnit.Tcu.Opcode

namespace TensorUnit.Tcu

/-- A row and the logarithm of the step from one row to the next. -/
structure StridedAddress where
  address : UInt64
  stride : UInt64
  deriving DecidableEq, Repr

def StridedAddress.unit (address : UInt64) : StridedAddress :=
  ⟨address, 0⟩

/-- A `size` is the number of rows less one. -/
inductive Instruction where
  | noOp
  /-- Sends scratchpad rows, or zeroes in their place, through the array into the accumulator. -/
  | matMul (accumulate zeroes : Bool) (scratchpad accumulator : StridedAddress) (size : UInt64)
  | dataMove (flag : MoveFlag) (scratchpad address : StridedAddress) (size : UInt64)
  /-- Loads scratchpad rows, or zeroes in their place, into the array. -/
  | loadWeights (zeroes : Bool) (scratchpad : StridedAddress) (size : UInt64)
  | configure (register : Register) (value : UInt64)
  deriving DecidableEq, Repr

namespace Instruction

def move (flag : MoveFlag) (scratchpad address size : UInt64) : Instruction :=
  .dataMove flag (.unit scratchpad) (.unit address) size

def opcode : Instruction → Opcode
  | noOp => .noOp
  | matMul .. => .matMul
  | dataMove .. => .dataMove
  | loadWeights .. => .loadWeights
  | configure .. => .configure

def flags : Instruction → Nat
  | noOp | configure .. => 0
  | matMul accumulate zeroes .. => accumulate.toNat + 2 * zeroes.toNat
  | dataMove flag .. => flag.code
  | loadWeights zeroes .. => zeroes.toNat

end Instruction

end TensorUnit.Tcu
