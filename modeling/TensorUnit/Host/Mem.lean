import TensorUnit.DataType.Codec
import TensorUnit.Host.Transfer

namespace TensorUnit.Host

open Remote

structure Mem where
  name : String
  dataType : DataType
  units : AddressUnits
  sizeBytes : UInt64
  chunkSize : Nat
  deriving DecidableEq, Repr

namespace Mem

def length (m : Mem) : UInt64 :=
  m.sizeBytes / m.units.scalarBytes

def isEmpty (m : Mem) : Bool :=
  m.length = 0

def check (m : Mem) (offset : ByteOffset) (length : UInt64) : Except DriverError Unit :=
  if offset.val.toNat + length.toNat ≤ m.sizeBytes.toNat then .ok ()
  else .error (.outOfBounds m.name offset.val length m.sizeBytes)

def bytesOf (m : Mem) (length : UInt64) : UInt64 :=
  (Exact.mul? length m.units.scalarBytes).getD (.ofNat (2 ^ 64 - 1))

/-- The bytes of one read: whole scalars within the chunk size and the payload. -/
def readSize (m : Mem) (maxPayload : Nat) : Nat :=
  let scalar := m.units.scalarBytes.toNat
  max (min m.chunkSize maxPayload / scalar) 1 * scalar

def windowCount (total size : Nat) : Nat :=
  (total + size - 1) / size

/-- The offset and length of a window. The last one is as long as the bytes last. -/
def window (total size index : Nat) : Nat × Nat :=
  (index * size, min size (total - index * size))

variable {σ : Type} [Service σ]

def writeRaw (m : Mem) (offset : ByteOffset) (bytes : List UInt8) : Action σ DriverError Unit := do
  Action.ofExcept (m.check offset (.ofNat bytes.length))
  let _ ← writeChunked m.name offset.val bytes m.chunkSize

def write (m : Mem) (address : ScalarAddress) (values : List Int) : Action σ DriverError Unit := do
  let bytes ← ofSpec (m.dataType.toBytes values)
  m.writeRaw (← ofSpec (m.units.bytes address)) bytes

def writeBytes (m : Mem) (offset : ByteOffset) (bytes : List UInt8) :
    Action σ DriverError Unit := do
  let _ ← ofSpec (m.units.scalarOfBytes offset)
  let _ ← ofSpec (m.units.scalarOfBytes ⟨.ofNat bytes.length⟩)
  m.writeRaw offset bytes

/-- The bytes of one read: the data of the first response. -/
def readWindow (m : Mem) (offset : UInt64) (window : Nat × Nat) :
    Action σ DriverError (List UInt8) := do
  let request := .bufferRead m.name (offset + .ofNat window.1) (.ofNat window.2)
  let responses ← (execute [request]).mapError .remote
  match responses.head?.bind Response.data? with
  | some data => return data
  | none => Action.fail (.remote (.transport (.noData m.name)))

def readWindows (m : Mem) (offset : UInt64) (total size index : Nat) (done : List (List UInt8)) :
    Nat → Action σ DriverError (List (List UInt8))
  | 0 => pure done.reverse
  | count + 1 => do
    let piece ← m.readWindow offset (window total size index)
    m.readWindows offset total size (index + 1) (piece :: done) count

def read (m : Mem) (address : ScalarAddress) (length : UInt64) :
    Action σ DriverError (List Int) := do
  let offset ← ofSpec (m.units.bytes address)
  let total := m.bytesOf length
  Action.ofExcept (m.check offset total)
  requireUp
  Action.require (total.toNat < byteLimit) (.spec .tooLarge)
  let size ← Action.view fun s => m.readSize (maxPayload s)
  let pieces ← m.readWindows offset.val total.toNat size 0 [] (windowCount total.toNat size)
  return m.dataType.ofBytes pieces.flatten

def compare (m : Mem) (address : ScalarAddress) (expected : List Int) :
    Action σ DriverError Bool := do
  let actual ← m.read address (.ofNat expected.length)
  return actual = expected

end Mem

end TensorUnit.Host
