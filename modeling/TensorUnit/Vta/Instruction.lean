import TensorUnit.Vta.Shape

namespace TensorUnit.Vta

/-- The dependency queues that an instruction waits on and signals. -/
structure DepFlags where
  popPrev : Bool
  popNext : Bool
  pushPrev : Bool
  pushNext : Bool
  deriving DecidableEq, Repr

def DepFlags.isEmpty (deps : DepFlags) : Bool :=
  !(deps.popPrev || deps.popNext || deps.pushPrev || deps.pushNext)

structure MemOp where
  deps : DepFlags
  sramBase : UInt64
  dramBase : UInt64
  ySize : UInt64
  xSize : UInt64
  xStride : UInt64
  yPad0 : UInt64
  yPad1 : UInt64
  xPad0 : UInt64
  xPad1 : UInt64
  deriving DecidableEq, Repr

structure GemmOp where
  deps : DepFlags
  reset : Bool
  uopBegin : UInt64
  uopEnd : UInt64
  iterOut : UInt64
  iterIn : UInt64
  dstFactorOut : UInt64
  dstFactorIn : UInt64
  srcFactorOut : UInt64
  srcFactorIn : UInt64
  wgtFactorOut : UInt64
  wgtFactorIn : UInt64
  deriving DecidableEq, Repr

structure AluOp where
  deps : DepFlags
  reset : Bool
  uopBegin : UInt64
  uopEnd : UInt64
  iterOut : UInt64
  iterIn : UInt64
  dstFactorOut : UInt64
  dstFactorIn : UInt64
  srcFactorOut : UInt64
  srcFactorIn : UInt64
  imm : UInt64
  deriving DecidableEq, Repr

inductive AluFunc where
  | min
  | max
  | add
  | shr
  deriving DecidableEq, Repr

namespace AluFunc

def all : List AluFunc :=
  [min, max, add, shr]

def key : AluFunc → String
  | min => "min"
  | max => "max"
  | add => "add"
  | shr => "shr"

end AluFunc

inductive Instruction where
  /-- from DRAM to the accumulator -/
  | load (op : MemOp)
  /-- from the output memory to DRAM -/
  | store (op : MemOp)
  | gemm (op : GemmOp)
  | alu (func : AluFunc) (useImm : Bool) (op : AluOp)
  | addi (op : AluOp)
  | finish (deps : DepFlags)
  /-- a GEMM with nothing to do -/
  | nop (deps : DepFlags)
  deriving DecidableEq, Repr

namespace Instruction

def shape : Instruction → Shape
  | load _ | store _ => .memory
  | gemm _ | finish _ | nop _ => .gemm
  | alu .. | addi _ => .alu

def opcodeKey : Instruction → String
  | load _ => "load"
  | store _ => "store"
  | gemm _ | nop _ => "gemm"
  | alu .. | addi _ => "alu"
  | finish _ => "finish"

def mnemonic : Instruction → String
  | load _ => "load"
  | store _ => "store"
  | gemm _ => "gemm"
  | alu .. => "alu"
  | addi _ => "addi"
  | finish _ => "finish"
  | nop _ => "nop"

def deps : Instruction → DepFlags
  | load op | store op => op.deps
  | gemm op => op.deps
  | alu _ _ op | addi op => op.deps
  | finish deps | nop deps => deps

end Instruction

end TensorUnit.Vta
