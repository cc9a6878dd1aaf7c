import TensorUnit.SpecError
import TensorUnit.Text.Hex

namespace TensorUnit

inductive EncodeError where
  | spec (error : SpecError)
  | unknownField (field : String)
  | invalidWidth (field : String) (width : Nat)
  | wordOverflow (bits wordBits : Nat)
  | invalidWordSize (bits : Nat)
  | valueOutOfRange (field : String) (value width : Nat)
  | valueTooWide (table key : String) (value width : Nat)
  /-- A window ends at no 32-bit position, or at no byte that is there. -/
  | positionOverflow (offset width : Nat)
  deriving DecidableEq, Repr

namespace EncodeError

def message : EncodeError → String
  | spec error => "Specification error: " ++ error.message
  | unknownField field => "Unknown field: " ++ field
  | invalidWidth field width =>
    s!"Invalid width for field {field}: {width} bits (valid range: 0-64)"
  | wordOverflow bits wordBits =>
    s!"Fields need {bits} bits but the instruction word is {wordBits} bits"
  | invalidWordSize bits => s!"Invalid instruction word size: {bits} bits"
  | valueOutOfRange field value width =>
    s!"Value {Text.Hex.prefixed value} does not fit field {field} ({width} bits)"
  | valueTooWide table key value width =>
    s!"ISA value {table}.{key} = {Text.Hex.prefixed value} does not fit in {width} bits"
  | positionOverflow offset width => s!"Bits {offset}+{width} end beyond any word"

/-- The field table does not match what is being encoded. -/
def isConfiguration : EncodeError → Bool
  | spec error => error.isConfiguration
  | valueOutOfRange .. => false
  | _ => true

def isRange : EncodeError → Bool
  | valueOutOfRange .. => true
  | _ => false

end EncodeError

instance : MonadLift (Except SpecError) (Except EncodeError) where
  monadLift action := action.mapError .spec

end TensorUnit
