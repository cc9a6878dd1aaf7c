import TensorUnit.DataType
import TensorUnit.Space

namespace TensorUnit

inductive AddressUnit where
  | scalars
  | bytes
  deriving DecidableEq, Repr

def AddressUnit.name : AddressUnit → String
  | scalars => "scalars"
  | bytes => "bytes"

inductive ArchitectureFault where
  | zero (parameter : String)
  | notPowerOfTwo (parameter : String) (value : UInt64)
  | noProbeRows
  deriving DecidableEq, Repr

def ArchitectureFault.message : ArchitectureFault → String
  | zero parameter => parameter ++ " must be positive"
  | notPowerOfTwo parameter value => parameter ++ " must be a power of two, got " ++ toString value
  | noProbeRows => "flush probe needs two DRAM0 rows and one local row"

inductive SpecError where
  | missingKey (table key : String)
  | invalidWidth (fieldClass : String) (width : Nat)
  | invalidInstructionSize (bits : Nat)
  | shapeOverflow (shape : String) (bits wordBits : Nat)
  | invalidArchitecture (fault : ArchitectureFault)
  | rawOutOfRange (value : Int) (dataType : DataType)
  | misaligned (value granularity : UInt64) (unit : AddressUnit)
  | addressOverflow (value : UInt64) (unit : AddressUnit)
  | outOfRange (space : Space) (start stop depth : UInt64)
  | malformed
  | unreadable
  | zeroGranularity
  /-- A size or an address is no 64-bit number, or no memory is as large. -/
  | tooLarge
  deriving DecidableEq, Repr

namespace SpecError

def message : SpecError → String
  | missingKey table key => s!"Missing ISA key: {table}.{key}"
  | invalidWidth fieldClass width =>
    "Invalid width for field class `" ++ fieldClass ++ "`: " ++ toString width
      ++ " bits (valid range: 1-64)"
  | invalidInstructionSize bits =>
    s!"Invalid instruction size: {bits} bits (must be a positive multiple of 8)"
  | shapeOverflow shape bits wordBits =>
    s!"{shape} shape needs {bits} bits but instructions are {wordBits} bits"
  | invalidArchitecture fault => "Invalid architecture: " ++ fault.message
  | rawOutOfRange value dataType =>
    s!"Value {value} is not representable as {dataType.name}"
  | misaligned value granularity unit =>
    s!"Address {value} is not aligned to {granularity} ({unit.name})"
  | addressOverflow value unit => s!"Address {value} overflows when converted to {unit.name}"
  | outOfRange space start stop depth =>
    s!"Row range {start}..{stop} exceeds {space.name} depth {depth}"
  | malformed => "JSON error"
  | unreadable => "I/O error"
  | zeroGranularity => "Address unit of size zero"
  | tooLarge => "Size or address too large"

def isConfiguration : SpecError → Bool
  | missingKey .. | invalidWidth .. | invalidInstructionSize _ | shapeOverflow ..
  | invalidArchitecture _ | malformed => true
  | _ => false

def orTooLarge {α : Type} : Option α → Except SpecError α
  | some result => .ok result
  | none => .error tooLarge

end SpecError

end TensorUnit
