namespace TensorUnit

inductive Space where
  | scratchpad
  | dram0
  | dram1
  | accumulator
  deriving DecidableEq, Repr

def Space.name : Space → String
  | scratchpad => "local"
  | dram0 => "dram0"
  | dram1 => "dram1"
  | accumulator => "accumulator"

inductive Bank where
  | dram0
  | dram1
  deriving DecidableEq, Repr

def Bank.space : Bank → Space
  | dram0 => .dram0
  | dram1 => .dram1

end TensorUnit
