import TensorUnit.SpecError

namespace TensorUnit.Vta

/-- Named entries; of two entries of one name the first counts. -/
abbrev Table (α : Type) := List (String × α)

inductive WidthClass where
  | opcode
  | flag
  | memId
  | memSram
  | memDram
  | memSize
  | memStride
  | memPad
  | memEmpty
  | uopBegin
  | uopEnd
  | iter
  | dstFactor
  | srcFactor
  | wgtFactor
  | gemmEmpty
  | aluOpcode
  | aluImm
  | aluEmpty
  deriving DecidableEq, Repr

namespace WidthClass

def all : List WidthClass :=
  [opcode, flag, memId, memSram, memDram, memSize, memStride, memPad, memEmpty, uopBegin, uopEnd,
   iter, dstFactor, srcFactor, wgtFactor, gemmEmpty, aluOpcode, aluImm, aluEmpty]

def key : WidthClass → String
  | opcode => "opcode"
  | flag => "flag"
  | memId => "mem_id"
  | memSram => "mem_sram"
  | memDram => "mem_dram"
  | memSize => "mem_size"
  | memStride => "mem_stride"
  | memPad => "mem_pad"
  | memEmpty => "mem_empty"
  | uopBegin => "uop_begin"
  | uopEnd => "uop_end"
  | iter => "iter"
  | dstFactor => "dst_factor"
  | srcFactor => "src_factor"
  | wgtFactor => "wgt_factor"
  | gemmEmpty => "gemm_empty"
  | aluOpcode => "alu_opcode"
  | aluImm => "alu_imm"
  | aluEmpty => "alu_empty"

end WidthClass

structure IsaValues where
  opcode : Table UInt64
  memId : Table UInt64
  aluOpcode : Table UInt64
  deriving DecidableEq, Repr

/-- The tables of an instruction set. A key that is absent is an error, never a default. -/
structure Isa where
  instructionBits : Nat
  widths : Table Nat
  values : IsaValues
  deriving DecidableEq, Repr

namespace Isa

/-- The 128-bit instruction set of a GEMM core of 1 by 16. -/
def reference : Isa where
  instructionBits := 128
  widths :=
    [("opcode", 3), ("flag", 1), ("mem_id", 3), ("mem_sram", 16), ("mem_dram", 32),
     ("mem_size", 16), ("mem_stride", 16), ("mem_pad", 4), ("mem_empty", 6), ("uop_begin", 13),
     ("uop_end", 14), ("iter", 14), ("dst_factor", 11), ("src_factor", 11), ("wgt_factor", 10),
     ("gemm_empty", 1), ("alu_opcode", 2), ("alu_imm", 16), ("alu_empty", 1)]
  values :=
    { opcode := [("load", 0), ("store", 1), ("gemm", 2), ("finish", 3), ("alu", 4)]
      memId := [("uop", 0), ("wgt", 1), ("inp", 2), ("acc", 3), ("out", 4)]
      aluOpcode := [("min", 0), ("max", 1), ("add", 2), ("shr", 3)] }

def validate (isa : Isa) : Except SpecError Unit :=
  if isa.instructionBits = 0 ∨ isa.instructionBits % 8 ≠ 0 then
    .error (.invalidInstructionSize isa.instructionBits)
  else .ok ()

def instructionBytes (isa : Isa) : Nat :=
  isa.instructionBits / 8

def width (isa : Isa) (cls : WidthClass) : Except SpecError Nat :=
  match isa.widths.lookup cls.key with
  | none => .error (.missingKey "width" cls.key)
  | some width =>
    if width = 0 ∨ 64 < width then .error (.invalidWidth cls.key width) else .ok width

def entry (table : Table UInt64) (title name : String) : Except SpecError UInt64 :=
  match table.lookup name with
  | none => .error (.missingKey title name)
  | some value => .ok value

def opcode (isa : Isa) (name : String) : Except SpecError UInt64 :=
  entry isa.values.opcode "value.opcode" name

def memId (isa : Isa) (name : String) : Except SpecError UInt64 :=
  entry isa.values.memId "value.mem_id" name

def aluOpcode (isa : Isa) (name : String) : Except SpecError UInt64 :=
  entry isa.values.aluOpcode "value.alu_opcode" name

end Isa

end TensorUnit.Vta
