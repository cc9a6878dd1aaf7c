import TensorUnit.Json.Document
import TensorUnit.Space

namespace TensorUnit

def Space.variant : Space → String
  | scratchpad => "Local"
  | dram0 => "Dram0"
  | dram1 => "Dram1"
  | accumulator => "Accumulator"

instance : Document Space where
  toJson space := .text space.variant
  ofJson? := Document.choice? Space.variant [.scratchpad, .dram0, .dram1, .accumulator]

instance : Document Bank where
  toJson bank := .text bank.space.variant
  ofJson? := Document.choice? (fun bank => bank.space.variant) [.dram0, .dram1]

end TensorUnit
