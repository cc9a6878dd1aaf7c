import TensorUnit.Json.Document
import TensorUnit.Vta.Instruction

namespace TensorUnit.Vta

open Document (toJson)

instance : Document IsaValues where
  toJson values := .record
    [("opcode", toJson values.opcode), ("mem_id", toJson values.memId),
     ("alu_opcode", toJson values.aluOpcode)]
  ofJson? json := do
    let parts ← Document.parts? false ["opcode", "mem_id", "alu_opcode"] json
    return ⟨← parts.get "opcode", ← parts.getD "mem_id" [], ← parts.getD "alu_opcode" []⟩

instance : Document Isa where
  toJson isa := .record
    [("instruction_bits", .nat isa.instructionBits),
     ("width", .record (isa.widths.map fun e => (e.1, .nat e.2))),
     ("value", toJson isa.values)]
  ofJson? json := do
    let parts ← Document.parts? false ["instruction_bits", "width", "value"] json
    let bits : UInt32 ← parts.get "instruction_bits"
    let widths : Table UInt32 ← parts.get "width"
    return ⟨bits.toNat, widths.map fun e => (e.1, e.2.toNat), ← parts.get "value"⟩

def Isa.parse (text : String) : Except SpecError Isa := do
  match Document.parse? text with
  | none => throw .malformed
  | some (isa : Isa) =>
    isa.validate
    return isa

def Shape.variant : Shape → String
  | memory => "Memory"
  | gemm => "Gemm"
  | alu => "Alu"

instance : Document Shape where
  toJson shape := .text shape.variant
  ofJson? := Document.choice? Shape.variant [.memory, .gemm, .alu]

def FieldName.variant : FieldName → String
  | opcode => "Opcode"
  | popPrevDep => "PopPrevDep"
  | popNextDep => "PopNextDep"
  | pushPrevDep => "PushPrevDep"
  | pushNextDep => "PushNextDep"
  | memType => "MemType"
  | sramBase => "SramBase"
  | dramBase => "DramBase"
  | empty => "Empty"
  | ySize => "YSize"
  | xSize => "XSize"
  | xStride => "XStride"
  | yPad0 => "YPad0"
  | yPad1 => "YPad1"
  | xPad0 => "XPad0"
  | xPad1 => "XPad1"
  | resetFlag => "ResetFlag"
  | resetReg => "ResetReg"
  | uopBegin => "UopBegin"
  | uopEnd => "UopEnd"
  | iterOut => "IterOut"
  | iterIn => "IterIn"
  | dstFactorOut => "DstFactorOut"
  | dstFactorIn => "DstFactorIn"
  | srcFactorOut => "SrcFactorOut"
  | srcFactorIn => "SrcFactorIn"
  | wgtFactorOut => "WgtFactorOut"
  | wgtFactorIn => "WgtFactorIn"
  | aluOpcode => "AluOpcode"
  | useImm => "UseImm"
  | imm => "Imm"

instance : Document FieldName where
  toJson name := .text name.variant
  ofJson? := Document.choice? FieldName.variant FieldName.all

def AluFunc.variant : AluFunc → String
  | min => "Min"
  | max => "Max"
  | add => "Add"
  | shr => "Shr"

instance : Document AluFunc where
  toJson func := .text func.variant
  ofJson? := Document.choice? AluFunc.variant AluFunc.all

instance : Document DepFlags where
  toJson deps := .record
    [("pop_prev", toJson deps.popPrev), ("pop_next", toJson deps.popNext),
     ("push_prev", toJson deps.pushPrev), ("push_next", toJson deps.pushNext)]
  ofJson? json := do
    let parts ← Document.parts? false ["pop_prev", "pop_next", "push_prev", "push_next"] json
    return ⟨← parts.get "pop_prev", ← parts.get "pop_next", ← parts.get "push_prev",
      ← parts.get "push_next"⟩

instance : Document MemOp where
  toJson op := .record
    [("deps", toJson op.deps), ("sram_base", toJson op.sramBase),
     ("dram_base", toJson op.dramBase), ("y_size", toJson op.ySize), ("x_size", toJson op.xSize),
     ("x_stride", toJson op.xStride), ("y_pad_0", toJson op.yPad0), ("y_pad_1", toJson op.yPad1),
     ("x_pad_0", toJson op.xPad0), ("x_pad_1", toJson op.xPad1)]
  ofJson? json := do
    let parts ← Document.parts? false
      ["deps", "sram_base", "dram_base", "y_size", "x_size", "x_stride", "y_pad_0", "y_pad_1",
       "x_pad_0", "x_pad_1"] json
    return {
      deps := ← parts.get "deps"
      sramBase := ← parts.get "sram_base"
      dramBase := ← parts.get "dram_base"
      ySize := ← parts.get "y_size"
      xSize := ← parts.get "x_size"
      xStride := ← parts.get "x_stride"
      yPad0 := ← parts.get "y_pad_0"
      yPad1 := ← parts.get "y_pad_1"
      xPad0 := ← parts.get "x_pad_0"
      xPad1 := ← parts.get "x_pad_1" }

instance : Document GemmOp where
  toJson op := .record
    [("deps", toJson op.deps), ("reset", toJson op.reset), ("uop_begin", toJson op.uopBegin),
     ("uop_end", toJson op.uopEnd), ("iter_out", toJson op.iterOut),
     ("iter_in", toJson op.iterIn), ("dst_factor_out", toJson op.dstFactorOut),
     ("dst_factor_in", toJson op.dstFactorIn), ("src_factor_out", toJson op.srcFactorOut),
     ("src_factor_in", toJson op.srcFactorIn), ("wgt_factor_out", toJson op.wgtFactorOut),
     ("wgt_factor_in", toJson op.wgtFactorIn)]
  ofJson? json := do
    let parts ← Document.parts? false
      ["deps", "reset", "uop_begin", "uop_end", "iter_out", "iter_in", "dst_factor_out",
       "dst_factor_in", "src_factor_out", "src_factor_in", "wgt_factor_out", "wgt_factor_in"] json
    return {
      deps := ← parts.get "deps"
      reset := ← parts.get "reset"
      uopBegin := ← parts.get "uop_begin"
      uopEnd := ← parts.get "uop_end"
      iterOut := ← parts.get "iter_out"
      iterIn := ← parts.get "iter_in"
      dstFactorOut := ← parts.get "dst_factor_out"
      dstFactorIn := ← parts.get "dst_factor_in"
      srcFactorOut := ← parts.get "src_factor_out"
      srcFactorIn := ← parts.get "src_factor_in"
      wgtFactorOut := ← parts.get "wgt_factor_out"
      wgtFactorIn := ← parts.get "wgt_factor_in" }

instance : Document AluOp where
  toJson op := .record
    [("deps", toJson op.deps), ("reset", toJson op.reset), ("uop_begin", toJson op.uopBegin),
     ("uop_end", toJson op.uopEnd), ("iter_out", toJson op.iterOut),
     ("iter_in", toJson op.iterIn), ("dst_factor_out", toJson op.dstFactorOut),
     ("dst_factor_in", toJson op.dstFactorIn), ("src_factor_out", toJson op.srcFactorOut),
     ("src_factor_in", toJson op.srcFactorIn), ("imm", toJson op.imm)]
  ofJson? json := do
    let parts ← Document.parts? false
      ["deps", "reset", "uop_begin", "uop_end", "iter_out", "iter_in", "dst_factor_out",
       "dst_factor_in", "src_factor_out", "src_factor_in", "imm"] json
    return {
      deps := ← parts.get "deps"
      reset := ← parts.get "reset"
      uopBegin := ← parts.get "uop_begin"
      uopEnd := ← parts.get "uop_end"
      iterOut := ← parts.get "iter_out"
      iterIn := ← parts.get "iter_in"
      dstFactorOut := ← parts.get "dst_factor_out"
      dstFactorIn := ← parts.get "dst_factor_in"
      srcFactorOut := ← parts.get "src_factor_out"
      srcFactorIn := ← parts.get "src_factor_in"
      imm := ← parts.get "imm" }

namespace Instruction

def toDocument : Instruction → Json
  | load op => .record [("Load", toJson op)]
  | store op => .record [("Store", toJson op)]
  | gemm op => .record [("Gemm", toJson op)]
  | alu func useImm op =>
    .record [("Alu", .record
      [("func", toJson func), ("use_imm", toJson useImm), ("op", toJson op)])]
  | addi op => .record [("Addi", toJson op)]
  | finish deps => .record [("Finish", toJson deps)]
  | nop deps => .record [("Nop", toJson deps)]

def ofAlu? (data : Json) : Option Instruction := do
  let parts ← Document.parts? false ["func", "use_imm", "op"] data
  return .alu (← parts.get "func") (← parts.get "use_imm") (← parts.get "op")

def ofDocument? (json : Json) : Option Instruction :=
  match Document.variant? json with
  | some ("Load", some data) => load <$> Document.ofJson? data
  | some ("Store", some data) => store <$> Document.ofJson? data
  | some ("Gemm", some data) => gemm <$> Document.ofJson? data
  | some ("Alu", some data) => ofAlu? data
  | some ("Addi", some data) => addi <$> Document.ofJson? data
  | some ("Finish", some data) => finish <$> Document.ofJson? data
  | some ("Nop", some data) => nop <$> Document.ofJson? data
  | _ => none

instance : Document Instruction where
  toJson := toDocument
  ofJson? := ofDocument?

end Instruction

end TensorUnit.Vta
