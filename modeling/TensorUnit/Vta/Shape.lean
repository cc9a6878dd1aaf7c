import TensorUnit.Vta.Isa

namespace TensorUnit.Vta

inductive FieldName where
  | opcode
  | popPrevDep
  | popNextDep
  | pushPrevDep
  | pushNextDep
  | memType
  | sramBase
  | dramBase
  | empty
  | ySize
  | xSize
  | xStride
  | yPad0
  | yPad1
  | xPad0
  | xPad1
  | resetFlag
  | resetReg
  | uopBegin
  | uopEnd
  | iterOut
  | iterIn
  | dstFactorOut
  | dstFactorIn
  | srcFactorOut
  | srcFactorIn
  | wgtFactorOut
  | wgtFactorIn
  | aluOpcode
  | useImm
  | imm
  deriving DecidableEq, Repr

namespace FieldName

def all : List FieldName :=
  [opcode, popPrevDep, popNextDep, pushPrevDep, pushNextDep, memType, sramBase, dramBase, empty,
   ySize, xSize, xStride, yPad0, yPad1, xPad0, xPad1, resetFlag, resetReg, uopBegin, uopEnd,
   iterOut, iterIn, dstFactorOut, dstFactorIn, srcFactorOut, srcFactorIn, wgtFactorOut,
   wgtFactorIn, aluOpcode, useImm, imm]

def text : FieldName → String
  | opcode => "opcode"
  | popPrevDep => "pop_prev_dep"
  | popNextDep => "pop_next_dep"
  | pushPrevDep => "push_prev_dep"
  | pushNextDep => "push_next_dep"
  | memType => "mem_type"
  | sramBase => "sram_base"
  | dramBase => "dram_base"
  | empty => "empty"
  | ySize => "y_size"
  | xSize => "x_size"
  | xStride => "x_stride"
  | yPad0 => "y_pad_0"
  | yPad1 => "y_pad_1"
  | xPad0 => "x_pad_0"
  | xPad1 => "x_pad_1"
  | resetFlag => "reset_flag"
  | resetReg => "reset_reg"
  | uopBegin => "uop_bgn"
  | uopEnd => "uop_end"
  | iterOut => "iter_out"
  | iterIn => "iter_in"
  | dstFactorOut => "dst_factor_out"
  | dstFactorIn => "dst_factor_in"
  | srcFactorOut => "src_factor_out"
  | srcFactorIn => "src_factor_in"
  | wgtFactorOut => "wgt_factor_out"
  | wgtFactorIn => "wgt_factor_in"
  | aluOpcode => "alu_opcode"
  | useImm => "use_imm"
  | imm => "imm"

end FieldName

/-- A shape lists its fields from the lowest bits up. -/
inductive Shape where
  | memory
  | gemm
  | alu
  deriving DecidableEq, Repr

namespace Shape

def name : Shape → String
  | memory => "memory"
  | gemm => "gemm"
  | alu => "alu"

/-- The opcode and the dependency flags, which open every shape. -/
def header : List (FieldName × WidthClass) :=
  [(.opcode, .opcode), (.popPrevDep, .flag), (.popNextDep, .flag), (.pushPrevDep, .flag),
   (.pushNextDep, .flag)]

def fields : Shape → List (FieldName × WidthClass)
  | memory => header ++
    [(.memType, .memId), (.sramBase, .memSram), (.dramBase, .memDram), (.empty, .memEmpty),
     (.ySize, .memSize), (.xSize, .memSize), (.xStride, .memStride), (.yPad0, .memPad),
     (.yPad1, .memPad), (.xPad0, .memPad), (.xPad1, .memPad)]
  | gemm => header ++
    [(.resetFlag, .flag), (.uopBegin, .uopBegin), (.uopEnd, .uopEnd), (.iterOut, .iter),
     (.iterIn, .iter), (.empty, .gemmEmpty), (.dstFactorOut, .dstFactor),
     (.dstFactorIn, .dstFactor), (.srcFactorOut, .srcFactor), (.srcFactorIn, .srcFactor),
     (.wgtFactorOut, .wgtFactor), (.wgtFactorIn, .wgtFactor)]
  | alu => header ++
    [(.resetReg, .flag), (.uopBegin, .uopBegin), (.uopEnd, .uopEnd), (.iterOut, .iter),
     (.iterIn, .iter), (.empty, .aluEmpty), (.dstFactorOut, .dstFactor),
     (.dstFactorIn, .dstFactor), (.srcFactorOut, .srcFactor), (.srcFactorIn, .srcFactor),
     (.aluOpcode, .aluOpcode), (.useImm, .flag), (.imm, .aluImm)]

def hasField (shape : Shape) (name : FieldName) : Bool :=
  shape.fields.any fun f => f.1 = name

end Shape

structure FieldSlot where
  name : FieldName
  width : Nat
  offset : Nat
  deriving DecidableEq, Repr

structure ShapeLayout where
  shape : Shape
  slots : List FieldSlot
  totalBits : Nat
  wordBits : Nat
  deriving DecidableEq, Repr

namespace ShapeLayout

def slotsFrom (isa : Isa) (offset : Nat) :
    List (FieldName × WidthClass) → Except SpecError (List FieldSlot)
  | [] => .ok []
  | (name, cls) :: rest => do
    let width ← isa.width cls
    return ⟨name, width, offset⟩ :: (← slotsFrom isa (offset + width) rest)

def resolve (shape : Shape) (isa : Isa) : Except SpecError ShapeLayout := do
  isa.validate
  let slots ← slotsFrom isa 0 shape.fields
  let bits := (slots.map FieldSlot.width).sum
  if isa.instructionBits < bits then
    throw (.shapeOverflow shape.name bits isa.instructionBits)
  return ⟨shape, slots, bits, isa.instructionBits⟩

def slot? (layout : ShapeLayout) (name : FieldName) : Option FieldSlot :=
  layout.slots.find? fun slot => slot.name = name

end ShapeLayout

end TensorUnit.Vta
