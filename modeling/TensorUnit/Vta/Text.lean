import TensorUnit.Text.Hex
import TensorUnit.Vta.Instruction

namespace TensorUnit.Vta

def DepFlags.text (deps : DepFlags) : String :=
  let names := [(deps.popPrev, "pop_prev"), (deps.popNext, "pop_next"),
    (deps.pushPrev, "push_prev"), (deps.pushNext, "push_next")].filterMap fun f =>
      if f.1 then some f.2 else none
  if names.isEmpty then "" else "deps(" ++ String.intercalate "," names ++ ")"

def address (value : UInt64) : String :=
  Text.Hex.prefixedUpper 1 value.toNat

def MemOp.text (op : MemOp) : String :=
  s!"sram={address op.sramBase} dram={address op.dramBase} y={op.ySize} x={op.xSize} "
    ++ s!"stride={op.xStride} pad=[{op.yPad0},{op.yPad1},{op.xPad0},{op.xPad1}]"

def GemmOp.text (op : GemmOp) : String :=
  (if op.reset then "reset " else "")
    ++ s!"uop=[{op.uopBegin},{op.uopEnd}) iter={op.iterOut}x{op.iterIn} "
    ++ s!"dst={op.dstFactorOut},{op.dstFactorIn} src={op.srcFactorOut},{op.srcFactorIn} "
    ++ s!"wgt={op.wgtFactorOut},{op.wgtFactorIn}"

def AluOp.text (op : AluOp) : String :=
  (if op.reset then "reset " else "")
    ++ s!"uop=[{op.uopBegin},{op.uopEnd}) iter={op.iterOut}x{op.iterIn} "
    ++ s!"dst={op.dstFactorOut},{op.dstFactorIn} src={op.srcFactorOut},{op.srcFactorIn}"

def Instruction.body : Instruction → String
  | load op | store op => op.text
  | gemm op => op.text
  | alu func useImm op =>
    func.key ++ (if useImm then s!" imm={op.imm}" else "") ++ " " ++ op.text
  | addi op => s!"imm={op.imm} {op.text}"
  | finish _ | nop _ => ""

def Instruction.text (instr : Instruction) : String :=
  String.intercalate " "
    (instr.mnemonic :: [instr.body, instr.deps.text].filter fun part => !part.isEmpty)

end TensorUnit.Vta
