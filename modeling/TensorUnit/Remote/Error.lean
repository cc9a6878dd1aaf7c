import TensorUnit.DecodeError
import TensorUnit.Duration
import TensorUnit.Tcu.Opcode

namespace TensorUnit.Remote

inductive DeviceFault where
  | unsupported (opcode : Tcu.Opcode)
  | localRow (row : UInt64)
  | dramRow (space : Space) (row : UInt64)
  | accumulatorRow (row : UInt64)
  | unmapped (address : UInt64)
  /-- The number of a row, or its physical address, is no 64-bit number. -/
  | addressOverflow
  | scalar (error : SpecError)
  | partialStream (length wordBytes : Nat)
  | undecodable (error : DecodeError)
  | other (text : String)
  deriving DecidableEq, Repr

def DeviceFault.message : DeviceFault → String
  | unsupported opcode => opcode.mnemonic ++ " is not supported by the simulator"
  | localRow row => s!"local row {row} out of range"
  | dramRow space row => s!"{space.name} row {row} out of range"
  | accumulatorRow row => s!"accumulator row {row} out of range"
  | unmapped address => "no buffer at physical " ++ Text.Hex.prefixed address.toNat
  | addressOverflow => "address overflow"
  | scalar error => error.message
  | partialStream length wordBytes =>
    s!"stream of {length} bytes is not a whole number of {wordBytes}-byte instructions"
  | undecodable error => error.message
  | other text => text

inductive TransportFault where
  /-- a write that was to fail, counted from 0 -/
  | injectedWrite (index : Nat)
  | noData (buffer : String)
  | other (text : String)
  deriving DecidableEq, Repr

def TransportFault.message : TransportFault → String
  | injectedWrite index => s!"injected failure on write {index}"
  | noData buffer => "no data returned for " ++ buffer
  | other text => text

inductive RemoteError where
  | notUp
  | unknownBuffer (name : String)
  | bufferExists (name : String)
  | unknownChannel (name : String)
  | outOfRange (name : String) (offset stop size : UInt64)
  | payloadTooLarge (length limit : Nat)
  | dmaTimeout (channel : String) (timeout : Duration)
  | device (fault : DeviceFault)
  | transport (fault : TransportFault)
  /-- No memory holds a buffer of this size, or the addresses behind it are used up. -/
  | unallocatable (size : UInt64)
  deriving DecidableEq, Repr

def RemoteError.message : RemoteError → String
  | notUp => "Remote instance is not up"
  | unknownBuffer name => "Unknown buffer: " ++ name
  | bufferExists name => "Buffer already allocated: " ++ name
  | unknownChannel name => "Unknown DMA channel: " ++ name
  | outOfRange name offset stop size =>
    s!"Access {Text.Hex.prefixed offset.toNat}..{Text.Hex.prefixed stop.toNat} "
      ++ s!"outside buffer {name} of {size} bytes"
  | payloadTooLarge length limit => s!"Payload of {length} bytes exceeds the {limit}-byte limit"
  | dmaTimeout channel timeout =>
    s!"DMA on channel {channel} did not complete within {timeout.text}"
  | device fault => "Device error: " ++ fault.message
  | transport fault => "Transport error: " ++ fault.message
  | unallocatable size => s!"No memory for a buffer of {size} bytes"

end TensorUnit.Remote
