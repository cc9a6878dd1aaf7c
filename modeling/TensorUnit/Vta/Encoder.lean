import TensorUnit.Field
import TensorUnit.Vta.Instruction

namespace TensorUnit.Vta

/-- The codes of an instruction set. ALU functions alone are optional: an instruction with a
function that the set leaves out cannot be encoded. -/
structure Codes where
  load : UInt64
  store : UInt64
  gemm : UInt64
  finish : UInt64
  alu : UInt64
  memAcc : UInt64
  memOut : UInt64
  aluFunc? : AluFunc → Option UInt64

namespace Codes

def checked (table key : String) (width : Nat) (value : UInt64) : Except EncodeError UInt64 :=
  if value.toNat < 2 ^ width then .ok value
  else .error (.valueTooWide table key value.toNat width)

def resolveFunc (isa : Isa) (width : Nat) (func : AluFunc) : Except EncodeError (Option UInt64) :=
  match isa.values.aluOpcode.lookup func.key with
  | none => .ok none
  | some value => some <$> checked "value.alu_opcode" func.key width value

def resolve (isa : Isa) : Except EncodeError Codes := do
  let opcodeWidth ← isa.width .opcode
  let memIdWidth ← isa.width .memId
  let aluWidth ← isa.width .aluOpcode
  let min ← resolveFunc isa aluWidth .min
  let max ← resolveFunc isa aluWidth .max
  let add ← resolveFunc isa aluWidth .add
  let shr ← resolveFunc isa aluWidth .shr
  let opcode (key : String) : Except EncodeError UInt64 := do
    checked "value.opcode" key opcodeWidth (← isa.opcode key)
  let memId (key : String) : Except EncodeError UInt64 := do
    checked "value.mem_id" key memIdWidth (← isa.memId key)
  return {
    load := ← opcode "load"
    store := ← opcode "store"
    gemm := ← opcode "gemm"
    finish := ← opcode "finish"
    alu := ← opcode "alu"
    memAcc := ← memId "acc"
    memOut := ← memId "out"
    aluFunc? := fun
      | .min => min
      | .max => max
      | .add => add
      | .shr => shr }

def aluFunc (codes : Codes) (func : AluFunc) : Except EncodeError UInt64 :=
  match codes.aluFunc? func with
  | some code => .ok code
  | none => .error (.spec (.missingKey "value.alu_opcode" func.key))

def aluFuncOf? (codes : Codes) (code : UInt64) : Option AluFunc :=
  AluFunc.all.find? fun func => codes.aluFunc? func = some code

end Codes

def DepFlags.fields (deps : DepFlags) : List (FieldName × Nat) :=
  [(.popPrevDep, deps.popPrev.toNat), (.popNextDep, deps.popNext.toNat),
   (.pushPrevDep, deps.pushPrev.toNat), (.pushNextDep, deps.pushNext.toNat)]

def MemOp.fields (op : MemOp) (memType : UInt64) : List (FieldName × Nat) :=
  op.deps.fields ++
    [(.memType, memType.toNat), (.sramBase, op.sramBase.toNat), (.dramBase, op.dramBase.toNat),
     (.ySize, op.ySize.toNat), (.xSize, op.xSize.toNat), (.xStride, op.xStride.toNat),
     (.yPad0, op.yPad0.toNat), (.yPad1, op.yPad1.toNat), (.xPad0, op.xPad0.toNat),
     (.xPad1, op.xPad1.toNat)]

def GemmOp.fields (op : GemmOp) : List (FieldName × Nat) :=
  op.deps.fields ++
    [(.resetFlag, op.reset.toNat), (.uopBegin, op.uopBegin.toNat), (.uopEnd, op.uopEnd.toNat),
     (.iterOut, op.iterOut.toNat), (.iterIn, op.iterIn.toNat),
     (.dstFactorOut, op.dstFactorOut.toNat), (.dstFactorIn, op.dstFactorIn.toNat),
     (.srcFactorOut, op.srcFactorOut.toNat), (.srcFactorIn, op.srcFactorIn.toNat),
     (.wgtFactorOut, op.wgtFactorOut.toNat), (.wgtFactorIn, op.wgtFactorIn.toNat)]

def AluOp.fields (op : AluOp) (func : UInt64) (useImm : Bool) : List (FieldName × Nat) :=
  op.deps.fields ++
    [(.resetReg, op.reset.toNat), (.uopBegin, op.uopBegin.toNat), (.uopEnd, op.uopEnd.toNat),
     (.iterOut, op.iterOut.toNat), (.iterIn, op.iterIn.toNat),
     (.dstFactorOut, op.dstFactorOut.toNat), (.dstFactorIn, op.dstFactorIn.toNat),
     (.srcFactorOut, op.srcFactorOut.toNat), (.srcFactorIn, op.srcFactorIn.toNat),
     (.aluOpcode, func.toNat), (.useImm, useImm.toNat), (.imm, op.imm.toNat)]

/-- The fields that an instruction sets and their values, in the order in which they are checked. -/
def Instruction.fields (codes : Codes) : Instruction → Except EncodeError (List (FieldName × Nat))
  | load op => .ok ((.opcode, codes.load.toNat) :: op.fields codes.memAcc)
  | store op => .ok ((.opcode, codes.store.toNat) :: op.fields codes.memOut)
  | gemm op => .ok ((.opcode, codes.gemm.toNat) :: op.fields)
  | alu func useImm op => do
    return (.opcode, codes.alu.toNat) :: op.fields (← codes.aluFunc func) useImm
  | addi op => do
    return (.opcode, codes.alu.toNat) :: op.fields (← codes.aluFunc .add) true
  | finish deps => .ok ((.opcode, codes.finish.toNat) :: deps.fields)
  | nop deps => .ok ((.opcode, codes.gemm.toNat) :: deps.fields)

structure Encoder where
  isa : Isa
  memory : ShapeLayout
  gemm : ShapeLayout
  alu : ShapeLayout
  codes : Codes

namespace Encoder

def ofIsa (isa : Isa) : Except EncodeError Encoder := do
  let memory ← ShapeLayout.resolve .memory isa
  let gemm ← ShapeLayout.resolve .gemm isa
  let alu ← ShapeLayout.resolve .alu isa
  let codes ← Codes.resolve isa
  return { isa, memory, gemm, alu, codes }

def wordBits (e : Encoder) : Nat :=
  e.isa.instructionBits

def wordBytes (e : Encoder) : Nat :=
  e.isa.instructionBytes

def layout (e : Encoder) : Shape → ShapeLayout
  | .memory => e.memory
  | .gemm => e.gemm
  | .alu => e.alu

def template (e : Encoder) (shape : Shape) : Except EncodeError FieldSet :=
  FieldSet.ofFields ((e.layout shape).slots.map fun slot => ⟨slot.name.text, slot.width, 0⟩)

def fields (e : Encoder) (instr : Instruction) : Except EncodeError FieldSet := do
  let set ← e.template instr.shape
  let values ← instr.fields e.codes
  set.setAll (values.map fun v => (v.1.text, v.2))

def encode (e : Encoder) (instr : Instruction) : Except EncodeError (List UInt8) := do
  (← e.fields instr).pack e.wordBits

def assemble (e : Encoder) (program : List Instruction) : Except EncodeError (List UInt8) := do
  return (← program.mapM e.encode).flatten

end Encoder

end TensorUnit.Vta
