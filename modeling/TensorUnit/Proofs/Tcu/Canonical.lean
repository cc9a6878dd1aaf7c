import TensorUnit.Proofs.Tcu.RoundTrip

namespace TensorUnit.Tcu

def window (word : List UInt8) (start width : Nat) : Nat :=
  Bytes.toNat word / 2 ^ start % 2 ^ width

namespace Layout

def flagsStart (l : Layout) : Nat :=
  l.op0Bits + l.op1Bits + l.op2Bits

def opcodeStart (l : Layout) : Nat :=
  l.flagsStart + flagsBits

def Defines (l : Layout) (word : List UInt8) : Opcode → Prop
  | .noOp | .matMul | .loadWeights => True
  | .simd => False
  | .dataMove => ∃ flag : MoveFlag, window word l.flagsStart flagsBits = flag.code
  | .configure =>
    l.op0Bits ≤ 64 ∧ l.op1Bits ≤ 64 ∧ ∃ register : Register, window word 0 l.op0Bits = register.code

/-- The words of the format. -/
def Accepts (l : Layout) (word : List UInt8) : Prop :=
  word.length = l.instructionBytes ∧
    ∃ opcode : Opcode, window word l.opcodeStart Opcode.bits = opcode.code ∧ l.Defines word opcode

/-- The bits that instructions of an opcode are read from: windows, each by its first bit and its
width. Of the flags, MatMul has two and LoadWeights one. -/
def windows (l : Layout) (opcode : Opcode) : List (Nat × Nat) :=
  let op0 := [(0, l.op0AddressBits), (l.op0AddressBits, l.op0StrideBits)]
  let op1Address := (l.op0Bits, l.op1AddressBits)
  let op1Stride := (l.op0Bits + l.op1AddressBits, l.op1StrideBits)
  let op2 := (l.op0Bits + l.op1Bits, l.op2AddressBits)
  (l.opcodeStart, Opcode.bits) ::
    match opcode with
    | .noOp | .simd => []
    | .matMul => op0 ++ [op1Address, op1Stride, op2, (l.flagsStart, 2)]
    | .dataMove => op0 ++ [op1Address, op1Stride, op2, (l.flagsStart, flagsBits)]
    | .loadWeights => op0 ++ [op1Address, (l.flagsStart, 1)]
    | .configure => [(0, l.op0Bits), (l.op0Bits, l.op1Bits)]

def uses (l : Layout) (opcode : Opcode) (bit : Nat) : Bool :=
  (l.windows opcode).any fun w => w.1 ≤ bit ∧ bit < w.1 + w.2

theorem opcodeStart_eq (l : Layout) : l.opcodeStart = l.instructionBits - Opcode.bits := by
  simp only [opcodeStart, flagsStart, instructionBits, headerBits, Opcode.bits]
  omega

theorem width_le_iff {arch : Architecture} {l : Layout} (hl : ofArchitecture arch = .ok l)
    (opcode : Opcode) :
    (∀ f ∈ blank l opcode, f.width ≤ Field.maxWidth) ↔
      (opcode = .configure → l.op0Bits ≤ 64 ∧ l.op1Bits ≤ 64) := by
  obtain ⟨_, rfl⟩ := ofArchitecture_eq_ok hl
  have hs := bitsFor_toNat_le arch.localDepth
  have ha := bitsFor_toNat_le arch.accumulatorDepth
  have h0 := bitsFor_toNat_le arch.dram0Depth
  have h1 := bitsFor_toNat_le arch.dram1Depth
  have hst0 := bitsFor_toNat_le arch.stride0Depth
  have hst1 := bitsFor_toNat_le arch.stride1Depth
  cases opcode <;>
    simp [blank, lowFields, Field.maxWidth, Layout.op0PadBits, Layout.op1PadBits,
      Layout.op2PadBits, flagsBits, Opcode.bits, ofDepths, Architecture.depth, roundToByte] <;>
    omega

end Layout

def reads : Opcode → List (String × Nat)
  | .noOp | .simd => [("flags", 0)]
  | .matMul =>
    [("flags", 2), ("op0_address", 64), ("op0_stride", 64), ("op1_address", 64), ("op1_stride", 64),
     ("op2_address", 64)]
  | .dataMove =>
    [("flags", 64), ("op0_address", 64), ("op0_stride", 64), ("op1_address", 64),
     ("op1_stride", 64), ("op2_address", 64)]
  | .loadWeights =>
    [("flags", 1), ("op0_address", 64), ("op0_stride", 64), ("op1_address", 64)]
  | .configure => [("flags", 0), ("register", 64), ("value", 64)]

def kept (opcode : Opcode) (name : String) : Nat :=
  if name = "opcode" then 64 else ((reads opcode).lookup name).getD 0

theorem keeps_blank {l : Layout} (hl : l.Whole) {opcode : Opcode}
    (hw : ∀ f ∈ blank l opcode, f.width ≤ Field.maxWidth) (bit : Nat) :
    FieldSet.keeps (kept opcode) 0 (blank l opcode) bit = l.uses opcode bit := by
  have h0 := hl.op0
  have h1 := hl.op1
  have h2 := hl.op2
  cases opcode <;>
    simp [blank, lowFields, Field.maxWidth, Layout.op0PadBits, Layout.op1PadBits, Layout.op2PadBits,
      flagsBits, Opcode.bits] at hw <;>
    rw [Bool.eq_iff_iff] <;>
    simp [FieldSet.keeps, blank, lowFields, kept, reads, List.lookup_cons, Layout.uses,
      Layout.windows, Layout.opcodeStart, Layout.flagsStart, Layout.op0PadBits, Layout.op1PadBits,
      Layout.op2PadBits, flagsBits, Opcode.bits] <;> omega

theorem Opcode.ofCode?_eq_some_iff {code : Nat} {opcode : Opcode} :
    Opcode.ofCode? code = some opcode ↔ code = opcode.code := by
  constructor
  · intro h
    have hp := List.find?_some h
    simpa [eq_comm] using hp
  · rintro rfl
    exact ofCode?_code opcode

theorem MoveFlag.ofCode?_eq_some_iff {code : Nat} {flag : MoveFlag} :
    MoveFlag.ofCode? code = some flag ↔ code = flag.code := by
  constructor
  · intro h
    have hp := List.find?_some h
    simpa [eq_comm] using hp
  · rintro rfl
    exact ofCode?_code flag

theorem Register.ofCode?_eq_some_iff {code : Nat} {register : Register} :
    Register.ofCode? code = some register ↔ code = register.code := by
  constructor
  · intro h
    have hp := List.find?_some h
    simpa [eq_comm] using hp
  · rintro rfl
    exact ofCode?_code register

theorem lookup_map_snd (f : String → Nat → Nat) (values : List (String × Nat)) (name : String) :
    (values.map fun p => (p.1, f p.1 p.2)).lookup name = (values.lookup name).map (f name) := by
  induction values with
  | nil => rfl
  | cons v vs ih =>
    rw [List.map_cons, List.lookup_cons, List.lookup_cons, ih]
    by_cases h : name = v.1
    · rw [h, beq_self_eq_true]
      rfl
    · rw [beq_eq_false_iff_ne.mpr h]

theorem mem_lowFields {l : Layout} {opcode : Opcode} {f : Field} (hf : f ∈ lowFields l opcode) :
    f.name ≠ "opcode" ∧ f.value = 0 := by
  cases opcode <;> simp [lowFields] at hf <;> grind

theorem value_blank (l : Layout) (opcode : Opcode) (name : String) :
    (blank l opcode).value name = if name = "opcode" then opcode.code else 0 := by
  split
  · rename_i hn
    rw [hn, blank, FieldSet.value_append fun f hf => (mem_lowFields hf).1, FieldSet.value_cons,
      if_pos rfl]
  · rename_i hn
    apply FieldSet.value_eq_zero
    intro f hf he
    rcases List.mem_append.mp hf with hf | hf
    · exact (mem_lowFields hf).2
    · rw [List.mem_singleton.mp hf] at he
      exact absurd he.symm hn

namespace Instruction

theorem operands_blank (l : Layout) (instr : Instruction) :
    ∀ name ∈ (("flags", instr.flags) :: instr.operands).map Prod.fst,
      name ∈ (blank l instr.opcode).map Field.name := by
  cases instr <;>
    simp [operands, StridedAddress.op0, StridedAddress.op1, blank, lowFields, opcode]

theorem nodup_blank (l : Layout) (opcode : Opcode) :
    ((blank l opcode).map Field.name).Nodup := by
  cases opcode <;> simp [blank, lowFields]

theorem operands_of_ofFields {set : FieldSet} (hv : ∀ name, set.value name < 2 ^ 64)
    {code : Opcode} {instr : Instruction} (h : ofFields set code = .ok instr) :
    instr.opcode = code ∧ ("flags", instr.flags) :: instr.operands =
      (reads code).map fun p => (p.1, set.value p.1 % 2 ^ p.2) := by
  have hm : ∀ name, set.value name % 2 ^ 64 = set.value name := fun name =>
    Nat.mod_eq_of_lt (hv name)
  cases code with
  | noOp =>
    cases h
    simp [opcode, flags, operands, reads, Nat.mod_one]
  | matMul =>
    cases h
    simp [opcode, flags, operands, reads, StridedAddress.op0, StridedAddress.op1, op0Of, op1Of, hm,
      Nat.toNat_testBit, -Nat.testBit_zero]
    omega
  | loadWeights =>
    cases h
    simp [opcode, flags, operands, reads, StridedAddress.op0, op0Of, hm, Nat.toNat_testBit,
      -Nat.testBit_zero]
  | simd => cases h
  | dataMove =>
    rw [ofFields] at h
    split at h
    · rename_i flag hf
      cases h
      have hc := MoveFlag.ofCode?_eq_some_iff.mp hf
      simp [opcode, flags, operands, reads, StridedAddress.op0, StridedAddress.op1, op0Of, op1Of,
        hm, ← hc]
    · cases h
  | configure =>
    rw [ofFields] at h
    split at h
    · rename_i register hr
      cases h
      have hc := Register.ofCode?_eq_some_iff.mp hr
      simp [opcode, flags, operands, reads, Nat.mod_one, hm, ← hc]
    · cases h

/-- The fields of an instruction that is read are those that it is read from, and nothing beside
them. -/
theorem fields_eq_clip {l : Layout} {code : Opcode} {set : FieldSet} {instr : Instruction}
    (hw : ∀ f ∈ blank l code, f.width ≤ Field.maxWidth)
    (hs : set.skeleton = (blank l code).skeleton) (hf : ∀ f ∈ set, f.Fits)
    (ho : set.value "opcode" = code.code) (h : ofFields set code = .ok instr) :
    instr.opcode = code ∧ instr.fields l = .ok (FieldSet.clip (kept code) set) := by
  have hv : ∀ name, set.value name < 2 ^ 64 := FieldSet.value_lt_of_width hs hf hw
  obtain ⟨rfl, hvalues⟩ := operands_of_ofFields hv h
  obtain ⟨fields, hset⟩ : ∃ fields, (blank l instr.opcode).setAll
      (("flags", instr.flags) :: instr.operands) = .ok fields := by
    apply FieldSet.exists_setAll
    intro v hm
    refine ⟨operands_blank l instr v.1 (List.mem_map_of_mem hm), ?_⟩
    rw [hvalues] at hm
    obtain ⟨p, _, rfl⟩ := List.mem_map.mp hm
    rw [← FieldSet.width_eq_of_skeleton hs]
    exact Nat.lt_of_le_of_lt (Nat.mod_le ..) (FieldSet.value_lt_width hf p.1)
  have hok : instr.fields l = .ok fields := by
    rw [Instruction.fields, template_eq_ok_iff.mpr ⟨hw, rfl⟩]
    exact hset
  obtain ⟨_, hk, _, hval⟩ := fields_spec hok
  have hclip : (FieldSet.clip (kept instr.opcode) set).skeleton = (blank l instr.opcode).skeleton :=
    (FieldSet.skeleton_clip _ _).trans hs
  have hnodup := FieldSet.names_eq_of_skeleton hclip ▸ nodup_blank l instr.opcode
  refine ⟨rfl, hok.trans (congrArg _ (FieldSet.eq_of_value (hk.trans hclip.symm) hnodup ?_))⟩
  intro name _
  rw [hval, FieldSet.value_clip, value_blank, hvalues,
    lookup_map_snd fun name bits => set.value name % 2 ^ bits, kept]
  by_cases hname : name = "opcode"
  · have hr : (reads instr.opcode).lookup "opcode" = none := by
      cases instr <;> rfl
    rw [hname, if_pos rfl, if_pos rfl, hr, ho]
    exact (Nat.mod_eq_of_lt (ho ▸ hv "opcode")).symm
  · rw [if_neg hname, if_neg hname]
    cases (reads instr.opcode).lookup name with
    | none => exact (Nat.mod_one _).symm
    | some bits => rfl

end Instruction

theorem instructionBits_lt {l : Layout} (hl : l.Whole) : l.instructionBits < 2 ^ 32 := by
  have := hl.bounded
  simp only [Layout.instructionBits, Layout.headerBits, flagsBits, Opcode.bits]
  omega

theorem eight_mul_instructionBytes {l : Layout} (hl : l.Whole) :
    8 * l.instructionBytes = l.instructionBits := by
  have := hl.bytes
  simp only [Layout.instructionBytes, Layout.instructionBits, Layout.headerBits, flagsBits,
    Opcode.bits]
  omega

theorem length_of_decode {l : Layout} {word : List UInt8} {instr : Instruction}
    (h : decode l word = .ok instr) : word.length = l.instructionBytes := by
  by_cases hn : word.length = l.instructionBytes
  · exact hn
  · rw [decode, if_pos hn] at h
    cases h

theorem decode_eq_ok_iff {l : Layout} (hl : l.Whole) {word : List UInt8}
    (hn : word.length = l.instructionBytes) {instr : Instruction} :
    decode l word = .ok instr ↔
      ∃ opcode : Opcode, window word l.opcodeStart Opcode.bits = opcode.code ∧
        (∀ f ∈ blank l opcode, f.width ≤ Field.maxWidth) ∧
        Instruction.ofFields ((blank l opcode).fill (Bytes.toNat word)) opcode = .ok instr := by
  have hb := instructionBits_lt hl
  have h8 := eight_mul_instructionBytes hl
  have hb4 : Opcode.bits ≤ l.instructionBits := by
    rw [Layout.instructionBits, Layout.headerBits]
    omega
  have he : Word.extract word (l.instructionBits - Opcode.bits) Opcode.bits =
      .ok (window word l.opcodeStart Opcode.bits) := by
    rw [Layout.opcodeStart_eq]
    exact Word.extract_eq_ok (by decide) (by omega) (by omega)
  constructor
  · intro h
    rw [decode, if_neg (Decidable.not_not.mpr hn), DecodeError.lift_bind he] at h
    cases hc : Opcode.ofCode? (window word l.opcodeStart Opcode.bits) with
    | none =>
      rw [hc] at h
      cases h
    | some opcode =>
      simp only [hc] at h
      cases ht : template l opcode with
      | error e =>
        rw [ht] at h
        cases h
      | ok set =>
        obtain ⟨hw, rfl⟩ := template_eq_ok_iff.mp ht
        have hu : Word.unpack word (blank l opcode) = _ := Word.unpack_eq_ok hw
          (by rw [totalBits_blank hl]; omega) (by rw [totalBits_blank hl]; omega)
        simp only [DecodeError.lift_bind ht, DecodeError.lift_bind hu] at h
        exact ⟨opcode, Opcode.ofCode?_eq_some_iff.mp hc, hw, h⟩
  · rintro ⟨opcode, hc, hw, h⟩
    have hu : Word.unpack word (blank l opcode) = _ := Word.unpack_eq_ok hw
      (by rw [totalBits_blank hl]; omega) (by rw [totalBits_blank hl]; omega)
    rw [← h]
    exact Instruction.decode_eq_ofFields hn he (hc ▸ Opcode.ofCode?_code opcode)
      (template_eq_ok_iff.mpr ⟨hw, rfl⟩) hu

section Values

variable {l : Layout} (word : List UInt8)

theorem value_fill_opcode (hl : l.Whole) (opcode : Opcode) :
    FieldSet.value ((blank l opcode).fill (Bytes.toNat word)) "opcode" =
      window word l.opcodeStart Opcode.bits := by
  have hlow : ∀ g ∈ lowFields l opcode, g.name ≠ "opcode" := fun _ hg => (mem_lowFields hg).1
  have h := FieldSet.value_fill (f := ⟨"opcode", Opcode.bits, opcode.code⟩) hlow []
    (Bytes.toNat word)
  rwa [totalBits_lowFields hl, ← Layout.opcodeStart_eq] at h

theorem value_fill_flags (hl : l.Whole) :
    FieldSet.value ((blank l .dataMove).fill (Bytes.toNat word)) "flags" =
      window word l.flagsStart flagsBits := by
  obtain ⟨before, hb, ht⟩ : ∃ before : FieldSet, (∀ g ∈ before, g.name ≠ "flags") ∧
      blank l .dataMove = before ++
        [⟨"flags", flagsBits, 0⟩, ⟨"opcode", Opcode.bits, Opcode.dataMove.code⟩] :=
    ⟨(blank l .dataMove).take 8, by simp [blank, lowFields], rfl⟩
  have hs : before.totalBits = l.flagsStart := by
    have h := totalBits_blank hl .dataMove
    rw [ht, FieldSet.totalBits_append] at h
    simp only [FieldSet.totalBits_cons, FieldSet.totalBits_nil, Layout.instructionBits,
      Layout.headerBits] at h
    rw [Layout.flagsStart]
    omega
  have h := FieldSet.value_fill (f := ⟨"flags", flagsBits, 0⟩) hb
    [⟨"opcode", Opcode.bits, Opcode.dataMove.code⟩] (Bytes.toNat word)
  rwa [← ht, hs] at h

theorem value_fill_register :
    FieldSet.value ((blank l .configure).fill (Bytes.toNat word)) "register" =
      window word 0 l.op0Bits :=
  FieldSet.value_fill (f := ⟨"register", l.op0Bits, 0⟩) (List.forall_mem_nil _) _ _

end Values

theorem ofFields_fill_iff {arch : Architecture} {l : Layout}
    (hl : Layout.ofArchitecture arch = .ok l) (word : List UInt8) (opcode : Opcode) :
    ((∀ f ∈ blank l opcode, f.width ≤ Field.maxWidth) ∧
      ∃ instr, Instruction.ofFields ((blank l opcode).fill (Bytes.toNat word)) opcode = .ok instr) ↔
        l.Defines word opcode := by
  have hw := Layout.whole_ofArchitecture hl
  rw [Layout.width_le_iff hl]
  cases opcode with
  | noOp | matMul | loadWeights | simd => simp [Layout.Defines, Instruction.ofFields]
  | dataMove =>
    simp only [Layout.Defines, Instruction.ofFields, value_fill_flags word hw]
    cases hc : MoveFlag.ofCode? (window word l.flagsStart flagsBits) with
    | some flag => simpa using ⟨flag, MoveFlag.ofCode?_eq_some_iff.mp hc⟩
    | none =>
      simp only [reduceCtorEq, exists_false, and_false, false_iff]
      rintro ⟨flag, hf⟩
      rw [MoveFlag.ofCode?_eq_some_iff.mpr hf] at hc
      cases hc
  | configure =>
    simp only [Layout.Defines, Instruction.ofFields, value_fill_register, forall_const]
    rw [and_assoc]
    refine and_congr_right fun _ => and_congr_right fun _ => ?_
    cases hc : Register.ofCode? (window word 0 l.op0Bits) with
    | some register => simpa using ⟨register, Register.ofCode?_eq_some_iff.mp hc⟩
    | none =>
      simp only [reduceCtorEq, exists_false, false_iff]
      rintro ⟨register, hr⟩
      rw [Register.ofCode?_eq_some_iff.mpr hr] at hc
      cases hc

theorem accepts_iff {arch : Architecture} {l : Layout} (hl : Layout.ofArchitecture arch = .ok l)
    (word : List UInt8) : (∃ instr, decode l word = .ok instr) ↔ l.Accepts word := by
  by_cases hn : word.length = l.instructionBytes
  · simp only [decode_eq_ok_iff (Layout.whole_ofArchitecture hl) hn, Layout.Accepts, hn, true_and,
      ← ofFields_fill_iff hl]
    constructor
    · rintro ⟨instr, opcode, hc, hw, h⟩
      exact ⟨opcode, hc, hw, instr, h⟩
    · rintro ⟨opcode, hc, hw, instr, h⟩
      exact ⟨instr, opcode, hc, hw, h⟩
  · constructor
    · rintro ⟨instr, h⟩
      exact absurd (length_of_decode h) hn
    · rintro ⟨h, _⟩
      exact absurd h hn

/-- An instruction that is read from a word has a word of its own, which agrees with the first where
the instruction looks and is zero elsewhere. -/
theorem encode_decode {l : Layout} (hl : l.Whole) {word : List UInt8} {instr : Instruction}
    (h : decode l word = .ok instr) :
    window word l.opcodeStart Opcode.bits = instr.opcode.code ∧
      ∃ canonical, instr.encode l = .ok canonical ∧ canonical.length = word.length ∧
        ∀ bit, (Bytes.toNat canonical).testBit bit =
          ((Bytes.toNat word).testBit bit && l.uses instr.opcode bit) := by
  have hn := length_of_decode h
  obtain ⟨opcode, hc, hw, hf⟩ := (decode_eq_ok_iff hl hn).mp h
  obtain ⟨rfl, hfields⟩ := Instruction.fields_eq_clip hw (FieldSet.skeleton_fill _ _)
    (FieldSet.fits_fill _ _) ((value_fill_opcode word hl opcode).trans hc) hf
  have hfit := FieldSet.fits_clip (kept instr.opcode)
    (FieldSet.fits_fill (blank l instr.opcode) (Bytes.toNat word))
  have hbits : l.instructionBits ≠ 0 ∧ l.instructionBits % 8 = 0 := by
    have := eight_mul_instructionBytes hl
    have := hl.instructionBytes_pos
    omega
  have htotal : (FieldSet.clip (kept instr.opcode)
      ((blank l instr.opcode).fill (Bytes.toNat word))).totalBits = l.instructionBits := by
    rw [FieldSet.totalBits_eq_of_skeleton ((FieldSet.skeleton_clip _ _).trans
      (FieldSet.skeleton_fill _ _)), totalBits_blank hl]
  have hp := FieldSet.pack_eq_ok hbits (Nat.le_of_eq htotal) hfit
  obtain ⟨hlen, _, hnat⟩ := FieldSet.toNat_pack hfit hp
  refine ⟨hc, _, ?_, hlen.trans hn.symm, fun bit => ?_⟩
  · rw [Instruction.encode, hfields]
    exact hp
  · rw [hnat, FieldSet.testBit_place_clip _ 0, Nat.zero_add, keeps_blank hl hw]

/-- The words that are read are those of the format, and reading loses the bits that the opcode has
no use for: an instruction is written to a word that has the others, and is read from it again. -/
theorem format_of_words {arch : Architecture} {layout : Layout}
    (hl : Layout.ofArchitecture arch = .ok layout) (word : List UInt8) :
    ((∃ instr, decode layout word = .ok instr) ↔ layout.Accepts word) ∧
      ∀ instr, decode layout word = .ok instr →
        window word layout.opcodeStart Opcode.bits = instr.opcode.code ∧
          ∃ canonical, instr.encode layout = .ok canonical ∧ canonical.length = word.length ∧
            (∀ bit, (Bytes.toNat canonical).testBit bit =
              ((Bytes.toNat word).testBit bit && layout.uses instr.opcode bit)) ∧
            decode layout canonical = .ok instr := by
  have hwhole := Layout.whole_ofArchitecture hl
  refine ⟨accepts_iff hl word, fun instr h => ?_⟩
  obtain ⟨hc, canonical, he, hn, hb⟩ := encode_decode hwhole h
  exact ⟨hc, canonical, he, hn, hb, (Instruction.decode_encode he).2⟩

/-- A word of LoadWeights with every bit set that it has no use for. -/
def stray : List UInt8 :=
  [9, 0, 0, 0, 0, 0, 0, 0, 255, 255, 255, 255, 255, 255, 255, 255, 63]

theorem format_of_words_stray :
    Layout.ofArchitecture lopsided = .ok (Layout.ofDepths lopsided) ∧
      (Layout.ofDepths lopsided).Accepts stray ∧
      decode (Layout.ofDepths lopsided) stray = .ok (.loadWeights true (.unit 0) 9) ∧
      ∃ canonical, canonical = [9, 0, 0, 0, 0, 0, 0, 0, 0, 0, 0, 0, 0, 0, 0, 0, 49] ∧
        (∀ bit, (Bytes.toNat canonical).testBit bit = ((Bytes.toNat stray).testBit bit &&
          (Layout.ofDepths lopsided).uses .loadWeights bit)) ∧
        decode (Layout.ofDepths lopsided) canonical = .ok (.loadWeights true (.unit 0) 9) := by
  have hl : Layout.ofArchitecture lopsided = .ok (Layout.ofDepths lopsided) := rfl
  have hd : decode (Layout.ofDepths lopsided) stray = .ok (.loadWeights true (.unit 0) 9) := rfl
  obtain ⟨haccept, hread⟩ := format_of_words hl stray
  obtain ⟨_, canonical, he, _, hbits, hdecode⟩ := hread _ hd
  have hc : canonical = [9, 0, 0, 0, 0, 0, 0, 0, 0, 0, 0, 0, 0, 0, 0, 0, 49] :=
    (Except.ok.inj he).symm
  exact ⟨hl, haccept.mp ⟨_, hd⟩, hd, canonical, hc, hbits, hdecode⟩

end TensorUnit.Tcu
