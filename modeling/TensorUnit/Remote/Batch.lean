import TensorUnit.Duration

namespace TensorUnit.Remote

inductive Primitive where
  | bufferAlloc (name : String) (size : UInt64)
  | bufferDealloc (name : String)
  | bufferWrite (name : String) (offset : UInt64) (data : List UInt8)
  | bufferRead (name : String) (offset length : UInt64)
  | dmaAlloc (name : String)
  /-- streams the whole of a buffer to the unit -/
  | dmaWrite (name source : String)
  | dmaWait (name : String) (timeout : Duration)
  | dmaDealloc (name : String)
  deriving DecidableEq, Repr

/-- The first primitive that fails ends its batch. -/
abbrev Batch := List Primitive

/-- One for each buffer that is allocated and each read, in order. -/
inductive Response where
  | address (value : UInt64)
  | data (bytes : List UInt8)
  deriving DecidableEq, Repr

namespace Response

def address? : Response → Option UInt64
  | address value => some value
  | data _ => none

def data? : Response → Option (List UInt8)
  | data bytes => some bytes
  | address _ => none

end Response

end TensorUnit.Remote
