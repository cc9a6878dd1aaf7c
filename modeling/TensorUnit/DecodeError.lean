import TensorUnit.EncodeError

namespace TensorUnit

inductive FormatFault where
  | memType (mnemonic : String) (found expected : Nat)
  | busyFinish (field : String)
  | aluOpcode (code : Nat)
  | moveFlag (code : Nat)
  | register (code : Nat)
  | simd
  deriving DecidableEq, Repr

def FormatFault.message : FormatFault → String
  | memType mnemonic found expected => s!"{mnemonic} with mem_type {found} (expected {expected})"
  | busyFinish field => "finish with nonzero field " ++ field
  | aluOpcode code => s!"unknown alu_opcode {code}"
  | moveFlag code => "unknown data move flag " ++ Text.Hex.prefixedUpper 1 code
  | register code => "unknown configuration register " ++ Text.Hex.prefixedUpper 1 code
  | simd => "SIMD instructions have no decoder"

inductive DecodeError where
  | unknownOpcode (code : Nat)
  | invalidEncoding (fault : FormatFault)
  | truncated (length wordBytes : Nat)
  | encode (error : EncodeError)
  | spec (error : SpecError)
  deriving DecidableEq, Repr

def DecodeError.message : DecodeError → String
  | unknownOpcode code => "Unknown opcode: " ++ Text.Hex.prefixedUpper 2 code
  | invalidEncoding fault => "Invalid instruction encoding: " ++ fault.message
  | truncated length wordBytes =>
    s!"Stream of {length} bytes is not a whole number of {wordBytes}-byte instructions"
  | encode error => "Encoding error: " ++ error.message
  | spec error => "Specification error: " ++ error.message

instance : MonadLift (Except EncodeError) (Except DecodeError) where
  monadLift action := action.mapError .encode

end TensorUnit
