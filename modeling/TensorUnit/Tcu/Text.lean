import TensorUnit.Tcu.Instruction

namespace TensorUnit.Tcu

def StridedAddress.text (a : StridedAddress) : String :=
  if a.stride = 0 then toString a.address else s!"{a.address}:{a.stride}"

def Instruction.text (instr : Instruction) : String :=
  instr.opcode.mnemonic ++
    match instr with
    | noOp => ""
    | matMul accumulate zeroes scratchpad accumulator size =>
      (if accumulate then ".acc" else "") ++ (if zeroes then ".zeroes" else "")
        ++ s!" local={scratchpad.text} acc={accumulator.text} size={size}"
    | dataMove flag scratchpad address size =>
      s!" {flag.mnemonic} local={scratchpad.text} addr={address.text} size={size}"
    | loadWeights zeroes scratchpad size =>
      (if zeroes then ".zeroes" else "") ++ s!" local={scratchpad.text} size={size}"
    | configure register value => s!" {register.name}={value}"

end TensorUnit.Tcu
