import TensorUnit.DecodeError
import TensorUnit.Vta.Encoder

namespace TensorUnit.Vta

def operand (set : FieldSet) (name : FieldName) : UInt64 :=
  .ofNat (set.value name.text)

def flag (set : FieldSet) (name : FieldName) : Bool :=
  set.value name.text != 0

def DepFlags.ofFields (set : FieldSet) : DepFlags where
  popPrev := flag set .popPrevDep
  popNext := flag set .popNextDep
  pushPrev := flag set .pushPrevDep
  pushNext := flag set .pushNextDep

def MemOp.ofFields (set : FieldSet) : MemOp where
  deps := .ofFields set
  sramBase := operand set .sramBase
  dramBase := operand set .dramBase
  ySize := operand set .ySize
  xSize := operand set .xSize
  xStride := operand set .xStride
  yPad0 := operand set .yPad0
  yPad1 := operand set .yPad1
  xPad0 := operand set .xPad0
  xPad1 := operand set .xPad1

def GemmOp.ofFields (set : FieldSet) : GemmOp where
  deps := .ofFields set
  reset := flag set .resetFlag
  uopBegin := operand set .uopBegin
  uopEnd := operand set .uopEnd
  iterOut := operand set .iterOut
  iterIn := operand set .iterIn
  dstFactorOut := operand set .dstFactorOut
  dstFactorIn := operand set .dstFactorIn
  srcFactorOut := operand set .srcFactorOut
  srcFactorIn := operand set .srcFactorIn
  wgtFactorOut := operand set .wgtFactorOut
  wgtFactorIn := operand set .wgtFactorIn

def AluOp.ofFields (set : FieldSet) : AluOp where
  deps := .ofFields set
  reset := flag set .resetReg
  uopBegin := operand set .uopBegin
  uopEnd := operand set .uopEnd
  iterOut := operand set .iterOut
  iterIn := operand set .iterIn
  dstFactorOut := operand set .dstFactorOut
  dstFactorIn := operand set .dstFactorIn
  srcFactorOut := operand set .srcFactorOut
  srcFactorIn := operand set .srcFactorIn
  imm := operand set .imm

def Codes.shapeOf? (codes : Codes) (opcode : UInt64) : Option Shape :=
  if opcode = codes.load ∨ opcode = codes.store then some .memory
  else if opcode = codes.gemm ∨ opcode = codes.finish then some .gemm
  else if opcode = codes.alu then some .alu
  else none

/-- The first field that is not zero, opcode and dependency flags apart. -/
def busyField? (set : FieldSet) : Option Field :=
  set.find? fun f => f.value ≠ 0 ∧ ∀ h ∈ Shape.header, h.1.text ≠ f.name

def decodeMemory (set : FieldSet) (mnemonic : String) (memType : UInt64)
    (kind : MemOp → Instruction) : Except DecodeError Instruction :=
  if operand set .memType = memType then .ok (kind (.ofFields set))
  else .error (.invalidEncoding
    (.memType mnemonic (operand set .memType).toNat memType.toNat))

def decodeGemm (codes : Codes) (opcode : UInt64) (set : FieldSet) :
    Except DecodeError Instruction :=
  match busyField? set with
  | some field =>
    if opcode = codes.finish then .error (.invalidEncoding (.busyFinish field.name))
    else .ok (.gemm (.ofFields set))
  | none =>
    if opcode = codes.finish then .ok (.finish (.ofFields set)) else .ok (.nop (.ofFields set))

def decodeAlu (codes : Codes) (set : FieldSet) : Except DecodeError Instruction :=
  match codes.aluFuncOf? (operand set .aluOpcode) with
  | none => .error (.invalidEncoding (.aluOpcode (operand set .aluOpcode).toNat))
  | some func =>
    let useImm := flag set .useImm
    if func = .add ∧ useImm then .ok (.addi (.ofFields set))
    else .ok (.alu func useImm (.ofFields set))

/-- Where two kinds share a word the more specific one wins: an ALU addition of the immediate is
Addi, and a GEMM with nothing to do is Nop. -/
def Instruction.ofFields (codes : Codes) (opcode : UInt64) (set : FieldSet) :
    Shape → Except DecodeError Instruction
  | .memory =>
    if opcode = codes.load then decodeMemory set "load" codes.memAcc .load
    else decodeMemory set "store" codes.memOut .store
  | .gemm => decodeGemm codes opcode set
  | .alu => decodeAlu codes set

def Encoder.decode (e : Encoder) (word : List UInt8) : Except DecodeError Instruction := do
  if word.length ≠ e.wordBytes then
    throw (.truncated word.length e.wordBytes)
  let width ← (e.isa.width .opcode).mapError DecodeError.spec
  let opcode := UInt64.ofNat (← Word.extract word 0 width)
  match e.codes.shapeOf? opcode with
  | none => throw (.unknownOpcode opcode.toNat)
  | some shape =>
    Instruction.ofFields e.codes opcode (← Word.unpack word (← e.template shape)) shape

end TensorUnit.Vta
