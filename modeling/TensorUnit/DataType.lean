import TensorUnit.Numerals

namespace TensorUnit

/-- A scalar type: its width, and the place of the binary point counted from the lowest bit. -/
inductive DataType where
  | fp16bp8
  | fp32bp16
  deriving DecidableEq, Repr

namespace DataType

def name : DataType → String
  | fp16bp8 => "FP16BP8"
  | fp32bp16 => "FP32BP16"

def widthBits : DataType → Nat
  | fp16bp8 => 16
  | fp32bp16 => 32

def binaryPoint : DataType → Nat
  | fp16bp8 => 8
  | fp32bp16 => 16

def scalarBytes (dt : DataType) : Nat :=
  dt.widthBits / 8

def minRaw (dt : DataType) : Int :=
  -(2 ^ (dt.widthBits - 1))

def maxRaw (dt : DataType) : Int :=
  2 ^ (dt.widthBits - 1) - 1

def Holds (dt : DataType) (raw : Int) : Prop :=
  dt.minRaw ≤ raw ∧ raw ≤ dt.maxRaw

instance (dt : DataType) (raw : Int) : Decidable (dt.Holds raw) :=
  inferInstanceAs (Decidable (_ ∧ _))

def saturate (dt : DataType) (raw : Int) : Int :=
  max dt.minRaw (min dt.maxRaw raw)

theorem holds_saturate (dt : DataType) (raw : Int) : dt.Holds (dt.saturate raw) := by
  cases dt <;> simp only [Holds, saturate, minRaw, maxRaw, widthBits] <;> omega

theorem saturate_eq_self {dt : DataType} {raw : Int} (h : dt.Holds raw) :
    dt.saturate raw = raw := by
  simp only [Holds, saturate] at *
  omega

end DataType

end TensorUnit
