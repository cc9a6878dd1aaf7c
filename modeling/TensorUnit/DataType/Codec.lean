import TensorUnit.Bytes
import TensorUnit.SpecError

namespace TensorUnit.DataType

def pattern (dt : DataType) (raw : Int) : Nat :=
  (raw % 2 ^ dt.widthBits).toNat

/-- The raw value of an unsigned pattern: the upper half of the patterns is negative. -/
def ofPattern (dt : DataType) (pattern : Nat) : Int :=
  Int.bmod pattern (2 ^ dt.widthBits)

def scalarToBytes (dt : DataType) (raw : Int) : List UInt8 :=
  Bytes.ofNat dt.scalarBytes (dt.pattern raw)

/-- Writes scalars one after another in two's complement, least significant byte first. The first
one out of range is the error. -/
def toBytes (dt : DataType) (values : List Int) : Except SpecError (List UInt8) :=
  match values.find? fun raw => ¬ dt.Holds raw with
  | some raw => .error (.rawOutOfRange raw dt)
  | none => .ok (values.flatMap dt.scalarToBytes)

/-- Reads the whole scalars; a last partial one is ignored. -/
def ofBytes (dt : DataType) (bytes : List UInt8) : List Int :=
  (Bytes.words dt.scalarBytes bytes).map fun word => dt.ofPattern (Bytes.toNat word)

end TensorUnit.DataType
