import TensorUnit.Tcu.Decode
import TensorUnit.Tcu.Text
import TensorUnit.Vta.Decode
import TensorUnit.Vta.Text

namespace TensorUnit.Listing

def describe {ι : Type} (text : ι → String) : Except DecodeError ι → String
  | .ok instr => text instr
  | .error error => "; ERROR: " ++ error.message

def line (describe : List UInt8 → String) (offset : Nat) (word : List UInt8) : String :=
  Text.Hex.prefixedUpper 6 offset ++ ":  " ++ Text.Hex.ofWord word ++ "  " ++ describe word ++ "\n"

def lines (describe : List UInt8 → String) (wordBytes : Nat) (words : List (List UInt8)) :
    List String :=
  words.zipIdx.map fun w => line describe (w.2 * wordBytes) w.1

/-- The listing of a stream of whole words. A word that is no instruction is noted in its line and
does not stop the listing. -/
def ofStream (family : String) (wordBits wordBytes : Nat) (describe : List UInt8 → String)
    (stream : List UInt8) : Except DecodeError String :=
  if wordBytes = 0 ∨ stream.length % wordBytes ≠ 0 then
    .error (.truncated stream.length wordBytes)
  else .ok (String.join
    (s!"; {family} disassembly\n" ::
      s!"; {stream.length / wordBytes} instructions ({wordBits}-bit words)\n" ::
      "\n" :: lines describe wordBytes (Bytes.words wordBytes stream)))

def vta (e : Vta.Encoder) : List UInt8 → Except DecodeError String :=
  ofStream "VTA" e.wordBits e.wordBytes fun word => describe Vta.Instruction.text (e.decode word)

def tcu (layout : Tcu.Layout) : List UInt8 → Except DecodeError String :=
  ofStream "TCU" layout.instructionBits layout.instructionBytes fun word =>
    describe Tcu.Instruction.text (Tcu.decode layout word)

end TensorUnit.Listing
