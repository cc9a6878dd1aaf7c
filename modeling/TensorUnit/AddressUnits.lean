import TensorUnit.Exact
import TensorUnit.SpecError
import TensorUnit.Text.Hex

namespace TensorUnit

structure RowAddress where
  val : UInt64
  deriving DecidableEq, Repr

def RowAddress.text (a : RowAddress) : String :=
  "row " ++ toString a.val

structure ScalarAddress where
  val : UInt64
  deriving DecidableEq, Repr

def ScalarAddress.text (a : ScalarAddress) : String :=
  "scalar " ++ toString a.val

structure ByteOffset where
  val : UInt64
  deriving DecidableEq, Repr

def ByteOffset.text (a : ByteOffset) : String :=
  "byte " ++ Text.Hex.prefixed a.val.toNat

/-- No memory has as many bytes. -/
def byteLimit : Nat := 2 ^ 63

/-- No memory has as many raw scalars, each of which takes four bytes on the host. -/
def scalarLimit : Nat := byteLimit / 4

/-- A row has `arraySize` scalars, and a scalar has `scalarBytes` bytes. -/
structure AddressUnits where
  arraySize : UInt64
  scalarBytes : UInt64
  deriving DecidableEq, Repr

namespace AddressUnits

def scale (unit : AddressUnit) (value factor : UInt64) : Except SpecError UInt64 :=
  match Exact.mul? value factor with
  | some scaled => .ok scaled
  | none => .error (.addressOverflow value unit)

/-- An address in a unit `granularity` times as coarse, if it stands on a boundary of that unit. -/
def coarsen (unit : AddressUnit) (value granularity : UInt64) : Except SpecError UInt64 :=
  if granularity = 0 then .error .zeroGranularity
  else if value % granularity = 0 then .ok (value / granularity)
  else .error (.misaligned value granularity unit)

def scalar (u : AddressUnits) (row : RowAddress) : Except SpecError ScalarAddress :=
  ScalarAddress.mk <$> scale .scalars row.val u.arraySize

def row (u : AddressUnits) (scalar : ScalarAddress) : Except SpecError RowAddress :=
  RowAddress.mk <$> coarsen .scalars scalar.val u.arraySize

def bytes (u : AddressUnits) (scalar : ScalarAddress) : Except SpecError ByteOffset :=
  ByteOffset.mk <$> scale .bytes scalar.val u.scalarBytes

def scalarOfBytes (u : AddressUnits) (bytes : ByteOffset) : Except SpecError ScalarAddress :=
  ScalarAddress.mk <$> coarsen .bytes bytes.val u.scalarBytes

def rowBytes (u : AddressUnits) (row : RowAddress) : Except SpecError ByteOffset := do
  u.bytes (← u.scalar row)

end AddressUnits

end TensorUnit
