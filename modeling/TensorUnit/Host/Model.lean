import TensorUnit.Architecture

namespace TensorUnit.Host

structure ProgramRef where
  fileName : String
  size : UInt64
  deriving DecidableEq, Repr

structure ConstRef where
  fileName : String
  base : UInt64
  size : UInt64
  deriving DecidableEq, Repr

structure Placement where
  name : String
  base : UInt64
  size : UInt64
  deriving DecidableEq, Repr

/-- A program, constants, and the regions of DRAM0 for inputs and outputs. Bases and sizes are
counted in rows, and files are named from the directory of the model's own. -/
structure Model where
  name : String
  prog : ProgramRef
  consts : List ConstRef
  inputs : List Placement
  outputs : List Placement
  arch : Architecture
  loadConstsToLocal : Bool
  deriving DecidableEq, Repr

structure LoadedModel where
  model : Model
  program : List UInt8
  path : String
  deriving DecidableEq, Repr

def misplaced? (limit : UInt64) (regions : List Placement) : Option (Placement × UInt64) :=
  (regions.map fun r => (r, Architecture.rangeEnd r.base r.size)).find? fun r => limit < r.2

end TensorUnit.Host
