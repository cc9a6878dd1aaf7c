import TensorUnit.Action
import TensorUnit.Architecture.Text
import TensorUnit.Remote.Error

namespace TensorUnit.Host

open Remote (RemoteError)

inductive ConfigFault where
  | emptyName (key : String)
  | repeatedBuffer (name : String)
  | chunkSize (size limit : Nat)
  | bufferSizeOverflow
  | addressCount (count : Nat)
  | rearmed
  deriving DecidableEq, Repr

def ConfigFault.message : ConfigFault → String
  | emptyName key => key ++ " is empty"
  | repeatedBuffer name => "buffer name " ++ name ++ " used twice"
  | chunkSize size limit => s!"chunk size {size} outside 1..={limit}"
  | bufferSizeOverflow => "DRAM buffer size overflows"
  | addressCount count => s!"expected 2 buffer addresses, service returned {count}"
  | rearmed => "flush probe re-armed while an earlier one is outstanding"

inductive DriverError where
  | spec (error : SpecError)
  | encode (error : EncodeError)
  | decode (error : DecodeError)
  | remote (error : RemoteError)
  | configuration (fault : ConfigFault)
  | architectureMismatch (model driver : Architecture)
  /-- A write failed at a chunk; the chunks before it are written. -/
  | transfer (buffer : String) (chunk : Nat) (offset : UInt64) (source : RemoteError)
  | outOfBounds (buffer : String) (offset length size : UInt64)
  | synchronizationTimeout (polls : Nat)
  | modelNotLoaded
  | missingInput (name : String)
  | inputTooLarge (name : String) (length : Nat) (capacity : UInt64)
  | invalidPlacement (name : String) (start stop limit : UInt64)
  | closed
  | unreadable
  | malformed
  deriving DecidableEq, Repr

namespace DriverError

def message : DriverError → String
  | spec error => "Specification error: " ++ error.message
  | encode error => "Encoding error: " ++ error.message
  | decode error => "Decoding error: " ++ error.message
  | remote error => "Service error: " ++ error.message
  | configuration fault => "Configuration error: " ++ fault.message
  | architectureMismatch model driver =>
    s!"Model requires architecture {model.text} but the driver runs {driver.text}"
  | transfer buffer chunk offset source =>
    s!"Transfer to {buffer} failed at chunk {chunk} (offset {Text.Hex.prefixed offset.toNat}): "
      ++ source.message
  | outOfBounds buffer offset length size =>
    s!"Access {Text.Hex.prefixed offset.toNat}+{length} outside {buffer} of {size} bytes"
  | synchronizationTimeout polls => s!"Flush not observed after {polls} polls"
  | modelNotLoaded => "Model not loaded"
  | missingInput name => "Missing input: " ++ name
  | inputTooLarge name length capacity =>
    s!"Input {name} has {length} values but its region holds {capacity}"
  | invalidPlacement name start stop limit =>
    s!"Model region {name} (rows {start}..{stop}) must end at or before DRAM0 row {limit}"
  | closed => "Driver is closed"
  | unreadable => "I/O error"
  | malformed => "JSON error"

/-- The caller may try again, or go on with the same driver. -/
def isRecoverable : DriverError → Bool
  | transfer .. | synchronizationTimeout _ | missingInput _ | inputTooLarge ..
  | remote (.dmaTimeout ..) => true
  | _ => false

def isConfiguration : DriverError → Bool
  | spec error => error.isConfiguration
  | encode error => error.isConfiguration
  | configuration _ | architectureMismatch .. | invalidPlacement .. | malformed => true
  | _ => false

end DriverError

variable {σ α : Type}

def ofSpec (r : Except SpecError α) : Action σ DriverError α :=
  Action.ofExcept (r.mapError .spec)

def ofEncode (r : Except EncodeError α) : Action σ DriverError α :=
  Action.ofExcept (r.mapError .encode)

end TensorUnit.Host
