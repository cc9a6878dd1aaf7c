import TensorUnit.Double
import TensorUnit.Json.Document

namespace TensorUnit

instance : Document Double where
  toJson x := .text (String.ofList (Text.Hex.digitsOfWidth 16 x.bits.toNat))
  ofJson? := fun
    | .str (some text) => (Text.Hex.toNat? text).map fun n => ⟨.ofNat n⟩
    | _ => none

end TensorUnit
