import TensorUnit.Proofs.Action
import TensorUnit.Proofs.Packing
import TensorUnit.Tcu.Decode

namespace TensorUnit

theorem bitsFor_le {depth bits : Nat} (h : depth ≤ 2 ^ bits) : bitsFor depth ≤ bits := by
  unfold bitsFor
  split
  · exact Nat.zero_le _
  · have hl : (depth - 1).log2 < bits := (Nat.log2_lt (by omega)).mpr (by omega)
    omega

theorem bitsFor_toNat_le (depth : UInt64) : bitsFor depth.toNat ≤ 64 :=
  bitsFor_le (Nat.le_of_lt depth.toNat_lt)

namespace Tcu

/-- Every part of an operand is a field, and the parts make up whole bytes. -/
structure Layout.Whole (l : Layout) : Prop where
  op0 : l.op0AddressBits + l.op0StrideBits ≤ l.op0Bits
  op1 : l.op1AddressBits + l.op1StrideBits ≤ l.op1Bits
  op2 : l.op2AddressBits ≤ l.op2Bits
  bytes : l.op0Bits % 8 = 0 ∧ l.op1Bits % 8 = 0 ∧ l.op2Bits % 8 = 0
  bounded : l.op0Bits < 136 ∧ l.op1Bits < 136 ∧ l.op2Bits < 136

theorem Layout.whole_ofDepths (arch : Architecture) : (Layout.ofDepths arch).Whole := by
  have hl := bitsFor_toNat_le arch.localDepth
  have ha := bitsFor_toNat_le arch.accumulatorDepth
  have h0 := bitsFor_toNat_le arch.dram0Depth
  have h1 := bitsFor_toNat_le arch.dram1Depth
  have hs := bitsFor_toNat_le arch.stride0Depth
  have ht := bitsFor_toNat_le arch.stride1Depth
  constructor <;> simp only [Layout.ofDepths, Architecture.depth, roundToByte] <;> omega

theorem Layout.ofArchitecture_eq_ok {arch : Architecture} {layout : Layout}
    (h : Layout.ofArchitecture arch = .ok layout) :
    arch.validate = .ok () ∧ layout = Layout.ofDepths arch := by
  unfold Layout.ofArchitecture at h
  cases hv : arch.validate with
  | error e => rw [hv] at h; cases h
  | ok _ =>
    rw [hv] at h
    cases h
    exact ⟨rfl, rfl⟩

theorem Layout.whole_ofArchitecture {arch : Architecture} {layout : Layout}
    (h : Layout.ofArchitecture arch = .ok layout) : layout.Whole := by
  rw [(ofArchitecture_eq_ok h).2]
  exact whole_ofDepths arch

theorem Layout.instructionBytes_pos (l : Layout) : 0 < l.instructionBytes := by
  simp only [instructionBytes, instructionBits, headerBits, flagsBits, Opcode.bits]
  omega

theorem Layout.Whole.instructionBytes_pos {l : Layout} (_ : l.Whole) : 0 < l.instructionBytes :=
  l.instructionBytes_pos

def lowFields (layout : Layout) (opcode : Opcode) : FieldSet :=
  (match opcode with
    | .configure => [⟨"register", layout.op0Bits, 0⟩, ⟨"value", layout.op1Bits, 0⟩]
    | _ =>
      [⟨"op0_address", layout.op0AddressBits, 0⟩, ⟨"op0_stride", layout.op0StrideBits, 0⟩,
       ⟨"op0_pad", layout.op0PadBits, 0⟩,
       ⟨"op1_address", layout.op1AddressBits, 0⟩, ⟨"op1_stride", layout.op1StrideBits, 0⟩,
       ⟨"op1_pad", layout.op1PadBits, 0⟩]) ++
    [⟨"op2_address", layout.op2AddressBits, 0⟩, ⟨"op2_pad", layout.op2PadBits, 0⟩,
     ⟨"flags", flagsBits, 0⟩]

def blank (layout : Layout) (opcode : Opcode) : FieldSet :=
  lowFields layout opcode ++ [⟨"opcode", Opcode.bits, opcode.code⟩]

theorem fits_blank (layout : Layout) (opcode : Opcode) : ∀ f ∈ blank layout opcode, f.Fits := by
  intro f hf
  rcases List.mem_append.mp hf with hf | hf
  · have hz : f.value = 0 := by cases opcode <;> simp [lowFields] at hf <;> grind
    rw [Field.Fits, hz]
    exact Nat.two_pow_pos _
  · rw [List.mem_singleton.mp hf]
    change opcode.code < 2 ^ Opcode.bits
    cases opcode <;> decide

theorem template_eq_ok_iff {layout : Layout} {opcode : Opcode} {set : FieldSet} :
    template layout opcode = .ok set ↔
      (∀ f ∈ blank layout opcode, f.width ≤ Field.maxWidth) ∧ set = blank layout opcode := by
  have he : template layout opcode = FieldSet.ofFields (blank layout opcode) := by
    cases opcode <;> rfl
  rw [he, FieldSet.ofFields_eq_ok_iff]
  constructor
  · rintro ⟨h, rfl⟩
    exact ⟨fun f hf => (h f hf).1, rfl⟩
  · rintro ⟨h, rfl⟩
    exact ⟨fun f hf => ⟨h f hf, fits_blank layout opcode f hf⟩, rfl⟩

theorem totalBits_lowFields {layout : Layout} (h : layout.Whole) (opcode : Opcode) :
    (lowFields layout opcode).totalBits = layout.instructionBits - Opcode.bits := by
  have h0 := h.op0
  have h1 := h.op1
  have h2 := h.op2
  cases opcode <;>
    simp only [lowFields, FieldSet.totalBits_append, FieldSet.totalBits_cons,
      FieldSet.totalBits_nil, Layout.op0PadBits, Layout.op1PadBits, Layout.op2PadBits,
      Layout.instructionBits, Layout.headerBits, flagsBits, Opcode.bits] <;> omega

theorem totalBits_blank {layout : Layout} (h : layout.Whole) (opcode : Opcode) :
    (blank layout opcode).totalBits = layout.instructionBits := by
  rw [blank, FieldSet.totalBits_append, totalBits_lowFields h, FieldSet.totalBits_cons,
    FieldSet.totalBits_nil, Layout.instructionBits, Layout.headerBits]
  change _ + (Opcode.bits + 0) = _
  omega

theorem le_totalBits_blank (layout : Layout) (opcode : Opcode) :
    layout.instructionBits ≤ (blank layout opcode).totalBits := by
  cases opcode <;>
    simp only [blank, lowFields, FieldSet.totalBits_append, FieldSet.totalBits_cons,
      FieldSet.totalBits_nil, Layout.op0PadBits, Layout.op1PadBits, Layout.op2PadBits,
      Layout.instructionBits, Layout.headerBits, flagsBits, Opcode.bits] <;> omega

theorem totalBits_blank_lt {layout : Layout} {opcode : Opcode}
    (h : ∀ f ∈ blank layout opcode, f.width ≤ Field.maxWidth) :
    (blank layout opcode).totalBits < 2 ^ 32 := by
  have hl : (blank layout opcode).length ≤ 10 := by
    cases opcode <;> simp [blank, lowFields]
  have hmul := Nat.mul_le_mul_right Field.maxWidth hl
  exact Nat.lt_of_le_of_lt (Nat.le_trans (FieldSet.totalBits_le h) hmul) (by decide)

theorem Opcode.ofCode?_code (opcode : Opcode) : Opcode.ofCode? opcode.code = some opcode := by
  cases opcode <;> rfl

theorem MoveFlag.ofCode?_code (flag : MoveFlag) : MoveFlag.ofCode? flag.code = some flag := by
  cases flag <;> rfl

theorem Register.ofCode?_code (register : Register) :
    Register.ofCode? register.code = some register := by
  cases register <;> rfl

namespace Instruction

theorem nodup_values (instr : Instruction) :
    ((("flags", instr.flags) :: instr.operands).map Prod.fst).Nodup := by
  cases instr <;> simp [operands, StridedAddress.op0, StridedAddress.op1]

theorem fields_spec {layout : Layout} {instr : Instruction} {set : FieldSet}
    (h : instr.fields layout = .ok set) :
    template layout instr.opcode = .ok (blank layout instr.opcode) ∧
      set.skeleton = (blank layout instr.opcode).skeleton ∧ (∀ f ∈ set, f.Fits) ∧
      ∀ name, set.value name = ((("flags", instr.flags) :: instr.operands).lookup name).getD
        ((blank layout instr.opcode).value name) := by
  unfold fields at h
  cases ht : template layout instr.opcode with
  | error e => rw [ht] at h; cases h
  | ok set =>
    rw [ht] at h
    obtain ⟨_, rfl⟩ := template_eq_ok_iff.mp ht
    obtain ⟨hs, hf, hv⟩ := FieldSet.setAll_spec h instr.nodup_values
    exact ⟨rfl, hs, hf (fits_blank layout instr.opcode), hv⟩

theorem fields_eq_append {layout : Layout} {instr : Instruction} {set : FieldSet}
    (h : instr.fields layout = .ok set) :
    ∃ low : FieldSet, low.totalBits = (lowFields layout instr.opcode).totalBits ∧
      set = low ++ [⟨"opcode", Opcode.bits, instr.opcode.code⟩] := by
  obtain ⟨_, hs, _, hv⟩ := fields_spec h
  rw [blank, FieldSet.skeleton, FieldSet.skeleton, List.map_append] at hs
  obtain ⟨low, top, rfl, hl, ht⟩ := List.map_eq_append_iff.mp hs
  obtain ⟨f, rfl, hf⟩ := List.map_eq_singleton_iff.mp ht
  have hlow : ∀ g ∈ low, g.name ≠ "opcode" := by
    intro g hg
    have hm := List.mem_map_of_mem (f := fun f : Field => (f.name, f.width)) hg
    rw [hl] at hm
    cases hi : instr.opcode <;> simp [hi, lowFields] at hm <;> grind
  have hblow : ∀ g ∈ lowFields layout instr.opcode, g.name ≠ "opcode" := by
    intro g hg
    cases hi : instr.opcode <;> simp [hi, lowFields] at hg <;> grind
  have ho := hv "opcode"
  have hz : (("flags", instr.flags) :: instr.operands).lookup "opcode" = none := by
    cases instr <;> simp [operands, StridedAddress.op0, StridedAddress.op1, List.lookup_cons]
  rw [hz, blank, FieldSet.value_append hlow, FieldSet.value_append hblow, FieldSet.value_cons,
    FieldSet.value_cons] at ho
  obtain ⟨name, width, value⟩ := f
  obtain ⟨rfl, rfl⟩ := Prod.mk.inj hf
  simp only [if_true, Option.getD_none] at ho
  subst ho
  exact ⟨low, FieldSet.totalBits_eq_of_skeleton hl, rfl⟩

theorem ofFields_fields {layout : Layout} {instr : Instruction} {set : FieldSet}
    (h : instr.fields layout = .ok set) : ofFields set instr.opcode = .ok instr := by
  obtain ⟨_, _, _, hv⟩ := fields_spec h
  cases instr with
  | noOp => rfl
  | matMul accumulate zeroes scratchpad accumulator size =>
    simp only [ofFields, opcode, op0Of, op1Of, hv]
    cases accumulate <;> cases zeroes <;>
      simp [operands, flags, StridedAddress.op0, StridedAddress.op1, List.lookup_cons,
        Nat.testBit_succ]
  | dataMove flag scratchpad address size =>
    simp [ofFields, opcode, op0Of, op1Of, hv, operands, flags, StridedAddress.op0,
      StridedAddress.op1, List.lookup_cons, MoveFlag.ofCode?_code]
  | loadWeights zeroes scratchpad size =>
    simp only [ofFields, opcode, op0Of, hv]
    cases zeroes <;> simp [operands, flags, StridedAddress.op0, List.lookup_cons]
  | configure register value =>
    simp [ofFields, opcode, hv, operands, List.lookup_cons, Register.ofCode?_code]

theorem decode_eq_ofFields {layout : Layout} {word : List UInt8} {code : Nat} {opcode : Opcode}
    {blank set : FieldSet} (hn : word.length = layout.instructionBytes)
    (ho : Word.extract word (layout.instructionBits - Opcode.bits) Opcode.bits = .ok code)
    (hc : Opcode.ofCode? code = some opcode) (ht : template layout opcode = .ok blank)
    (hu : Word.unpack word blank = .ok set) : decode layout word = ofFields set opcode := by
  rw [decode, if_neg (Decidable.not_not.mpr hn)]
  apply (DecodeError.lift_bind ho).trans
  simp only [hc]
  rw [DecodeError.lift_bind ht, DecodeError.lift_bind hu]

theorem decode_encode {layout : Layout} {instr : Instruction} {word : List UInt8}
    (h : instr.encode layout = .ok word) :
    word.length = layout.instructionBytes ∧ decode layout word = .ok instr := by
  obtain ⟨set, hs, h⟩ := exists_of_bind_ok h
  obtain ⟨ht, hk, hf, _⟩ := fields_spec hs
  obtain ⟨low, hb, rfl⟩ := fields_eq_append hs
  have hw := (template_eq_ok_iff.mp ht).1
  obtain ⟨hn, hfit, _⟩ := FieldSet.toNat_pack hf h
  -- the fields fit into the word, so they make up the whole of it
  have htotal : (blank layout instr.opcode).totalBits = layout.instructionBits := by
    have hle := le_totalBits_blank layout instr.opcode
    rw [FieldSet.totalBits_eq_of_skeleton hk] at hfit
    omega
  have hlow : (lowFields layout instr.opcode).totalBits + Opcode.bits = layout.instructionBits := by
    rw [← htotal, blank, FieldSet.totalBits_append]
    rfl
  have hbound := totalBits_blank_lt hw
  have ho : Word.extract word (layout.instructionBits - Opcode.bits) Opcode.bits =
      .ok instr.opcode.code := by
    rw [← hlow, Nat.add_sub_cancel, ← hb]
    exact Word.extract_pack _ (f := ⟨"opcode", Opcode.bits, instr.opcode.code⟩) hf
      (by decide : Opcode.bits ≤ Field.maxWidth)
      (by rw [hb]; change _ + Opcode.bits < _; omega) h
  have hu : Word.unpack word (blank layout instr.opcode) = .ok _ :=
    Word.unpack_pack hk.symm hf hw hbound h
  refine ⟨hn, ?_⟩
  exact (decode_eq_ofFields hn ho (Opcode.ofCode?_code _) ht hu).trans (ofFields_fields hs)

end Instruction

theorem assemble_eq_ok {layout : Layout} {program : List Instruction} {stream : List UInt8}
    (h : assemble layout program = .ok stream) :
    ∃ ws, program.mapM (·.encode layout) = .ok ws ∧ stream = ws.flatten := by
  unfold assemble at h
  cases hw : program.mapM (·.encode layout) with
  | error e => rw [hw] at h; cases h
  | ok ws =>
    rw [hw] at h
    cases h
    exact ⟨ws, rfl, rfl⟩

theorem decode_assemble {layout : Layout} (hl : layout.Whole) {program : List Instruction}
    {stream : List UInt8} (h : assemble layout program = .ok stream) :
    stream.length = program.length * layout.instructionBytes ∧
      (Bytes.words layout.instructionBytes stream).mapM (decode layout) = .ok program := by
  obtain ⟨ws, hw, rfl⟩ := assemble_eq_ok h
  have hd := Bytes.mapM_decode_words (f := id) hl.instructionBytes_pos
    (fun _ _ => Instruction.decode_encode) hw
  rwa [List.map_id] at hd

/-- Every program that has words for a valid architecture is found again in them: there are as many
words as instructions, and in order they decode to the instructions themselves. -/
theorem program_of_words {arch : Architecture} {layout : Layout} {program : List Instruction}
    {stream : List UInt8} (hl : Layout.ofArchitecture arch = .ok layout)
    (h : assemble layout program = .ok stream) :
    stream.length = program.length * layout.instructionBytes ∧
      (Bytes.words layout.instructionBytes stream).mapM (decode layout) = .ok program :=
  decode_assemble (Layout.whole_ofArchitecture hl) h

/-- A unit with a single row beside the array, and with the longest addresses and strides outside:
operand 0 takes no bits, and operand 1 takes 128. -/
def lopsided : Architecture :=
  { Architecture.pynqZ1 with
    localDepth := 1, accumulatorDepth := 1, dram0Depth := 0xFFFFFFFFFFFFFFFF, stride0Depth := 1,
    stride1Depth := 0x8000000000000000 }

def lopsidedProgram : List Instruction :=
  [.noOp, .move .localToDram0 0 0xFFFFFFFFFFFFFFFE 0, .matMul true false (.unit 0) ⟨5, 62⟩ 0,
   .loadWeights true (.unit 0) 9]

def lopsidedStream : List UInt8 :=
  List.replicate 17 0 ++
    [254, 255, 255, 255, 255, 255, 255, 255, 0, 0, 0, 0, 0, 0, 0, 0, 33] ++
    [5, 0, 0, 0, 0, 0, 0, 0, 62, 0, 0, 0, 0, 0, 0, 0, 17] ++
    [9, 0, 0, 0, 0, 0, 0, 0, 0, 0, 0, 0, 0, 0, 0, 0, 49]

theorem program_of_words_lopsided :
    Layout.ofArchitecture lopsided = .ok (Layout.ofDepths lopsided) ∧
      assemble (Layout.ofDepths lopsided) lopsidedProgram = .ok lopsidedStream ∧
      lopsidedStream.length = 4 * 17 ∧
      (Bytes.words 17 lopsidedStream).mapM (decode (Layout.ofDepths lopsided)) =
        .ok lopsidedProgram := by
  have hl : Layout.ofArchitecture lopsided = .ok (Layout.ofDepths lopsided) := rfl
  have hs : assemble (Layout.ofDepths lopsided) lopsidedProgram = .ok lopsidedStream := rfl
  exact ⟨hl, hs, program_of_words hl hs⟩

end Tcu

end TensorUnit
