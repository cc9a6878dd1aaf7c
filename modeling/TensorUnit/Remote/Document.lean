import TensorUnit.Json.Document
import TensorUnit.Remote.Batch

namespace TensorUnit.Remote

open Document (toJson)

def hexJson (bytes : List UInt8) : Json :=
  .text (Text.Hex.ofBytes bytes)

def Primitive.toDocument : Primitive → Json
  | bufferAlloc name size => .arr [.text "alloc", .text name, toJson size]
  | bufferDealloc name => .arr [.text "dealloc", .text name]
  | bufferWrite name offset data =>
    .arr [.text "write", .text name, toJson offset, hexJson data]
  | bufferRead name offset length =>
    .arr [.text "read", .text name, toJson offset, toJson length]
  | dmaAlloc name => .arr [.text "dma_alloc", .text name]
  | dmaWrite name source => .arr [.text "dma_write", .text name, .text source]
  | dmaWait name timeout => .arr [.text "dma_wait", .text name, .nat timeout.toMillis]
  | dmaDealloc name => .arr [.text "dma_dealloc", .text name]

def Batch.toDocument (batch : Batch) : Json :=
  .arr (batch.map Primitive.toDocument)

/-- An address is a number, and data is hexadecimal text. -/
instance : Document Response where
  toJson := fun
    | .address value => toJson value
    | .data bytes => hexJson bytes
  ofJson? := fun
    | .str (some text) => (Text.Hex.toBytes? text).map .data
    | json => (Document.ofJson? json).map .address

end TensorUnit.Remote
