import TensorUnit.Proofs.Vta.RoundTrip

namespace TensorUnit.Vta

def Within (set : FieldSet) (values : List (FieldName × Nat)) : Prop :=
  ∀ v ∈ values, v.2 ≤ set.value v.1.text

section Within

variable {set : FieldSet}

theorem toNat_flag_le (name : FieldName) : (flag set name).toNat ≤ set.value name.text := by
  by_cases h : set.value name.text = 0
  · simp [flag, h]
  · exact Nat.le_trans (Bool.toNat_le _) (Nat.pos_of_ne_zero h)

theorem toNat_operand_le (name : FieldName) :
    (operand set name).toNat ≤ set.value name.text := by
  rw [operand, UInt64.toNat_ofNat']
  exact Nat.mod_le ..

theorem DepFlags.within_fields : Within set (DepFlags.ofFields set).fields := by
  simp [Within, fields, ofFields, toNat_flag_le]

theorem MemOp.within_fields {memType : UInt64} (h : operand set .memType = memType) :
    Within set ((MemOp.ofFields set).fields memType) := by
  rw [Within, MemOp.fields, List.forall_mem_append]
  exact ⟨DepFlags.within_fields, by simp [ofFields, ← h, toNat_operand_le]⟩

theorem GemmOp.within_fields : Within set (GemmOp.ofFields set).fields := by
  rw [Within, GemmOp.fields, List.forall_mem_append]
  exact ⟨DepFlags.within_fields, by simp [ofFields, toNat_flag_le, toNat_operand_le]⟩

theorem AluOp.within_fields {func : UInt64} {useImm : Bool}
    (hf : operand set .aluOpcode = func) (hi : flag set .useImm = useImm) :
    Within set ((AluOp.ofFields set).fields func useImm) := by
  rw [Within, AluOp.fields, List.forall_mem_append]
  exact ⟨DepFlags.within_fields, by simp [ofFields, ← hf, ← hi, toNat_flag_le, toNat_operand_le]⟩

end Within

theorem GemmOp.value_of_idle {set : FieldSet} (hv : ∀ name, set.value name < 2 ^ 64)
    {deps : DepFlags} (h : GemmOp.ofFields set = .idle deps) :
    ∀ name ∈ gemmWork, name ≠ .empty → set.value name.text = 0 := by
  have hoperand : ∀ name, operand set name = 0 → set.value name.text = 0 := by
    intro name h0
    have hz := congrArg UInt64.toNat h0
    rwa [operand, UInt64.toNat_ofNat', Nat.mod_eq_of_lt (hv _)] at hz
  have hflag : ∀ name, flag set name = false → set.value name.text = 0 := by
    intro name h0
    simpa [flag] using h0
  rw [ofFields, idle, GemmOp.mk.injEq] at h
  obtain ⟨_, h1, h2, h3, h4, h5, h6, h7, h8, h9, h10, h11⟩ := h
  intro name hm hne
  simp only [gemmWork, List.mem_cons, List.not_mem_nil, or_false] at hm
  rcases hm with rfl | rfl | rfl | rfl | rfl | rfl | rfl | rfl | rfl | rfl | rfl | rfl
  · exact hflag _ h1
  · exact hoperand _ h2
  · exact hoperand _ h3
  · exact hoperand _ h4
  · exact hoperand _ h5
  · exact absurd rfl hne
  · exact hoperand _ h6
  · exact hoperand _ h7
  · exact hoperand _ h8
  · exact hoperand _ h9
  · exact hoperand _ h10
  · exact hoperand _ h11

theorem Codes.aluFunc_of_aluFuncOf? {codes : Codes} {code : UInt64} {func : AluFunc}
    (h : codes.aluFuncOf? code = some func) : codes.aluFunc func = .ok code := by
  have hp : codes.aluFunc? func = some code := by
    have hf := List.find?_some h
    simpa using hf
  rw [aluFunc, hp]

/-- An instruction that is read by the fields of its shape: it is of the kind that its codes stand
for, and what it sets is no more than what it is read from. -/
structure Instruction.ReadFrom (codes : Codes) (opcode : UInt64) (set : FieldSet)
    (instr : Instruction) : Prop where
  code : instr.code codes = opcode
  chosen : codes.Chosen instr
  fields : ∃ values, instr.fields codes = .ok ((.opcode, opcode.toNat) :: values) ∧
    Within set values
  addition : ∀ op, instr ≠ .alu .add true op

theorem Codes.shapeOf?_eq_some {codes : Codes} {opcode : UInt64} {shape : Shape}
    (h : codes.shapeOf? opcode = some shape) :
    (shape = .memory ∧ (opcode = codes.load ∨ opcode = codes.store)) ∨
      (shape = .gemm ∧ (opcode ≠ codes.load ∧ opcode ≠ codes.store) ∧
        (opcode = codes.gemm ∨ opcode = codes.finish)) ∨
      (shape = .alu ∧ (opcode ≠ codes.load ∧ opcode ≠ codes.store ∧ opcode ≠ codes.gemm ∧
        opcode ≠ codes.finish) ∧ opcode = codes.alu) := by
  unfold shapeOf? at h
  split at h
  · cases h
    simp_all
  · split at h
    · cases h
      simp_all
    · split at h
      · cases h
        simp_all
      · cases h

theorem readFrom_memory {codes : Codes} {opcode : UInt64} {set : FieldSet} {instr : Instruction}
    (ho : opcode = codes.load ∨ opcode = codes.store)
    (h : Instruction.ofFields codes opcode set .memory = .ok instr) :
    instr.shape = .memory ∧ instr.ReadFrom codes opcode set := by
  rw [Instruction.ofFields] at h
  split at h
  · rename_i hl
    unfold decodeMemory at h
    split at h
    · rename_i ht
      cases h
      subst hl
      exact ⟨rfl, rfl, trivial, ⟨_, rfl, MemOp.within_fields ht⟩, fun _ he => by cases he⟩
    · cases h
  · rename_i hl
    unfold decodeMemory at h
    split at h
    · rename_i ht
      cases h
      have hs := ho.resolve_left hl
      subst hs
      exact ⟨rfl, rfl, hl, ⟨_, rfl, MemOp.within_fields ht⟩, fun _ he => by cases he⟩
    · cases h

theorem readFrom_gemm {codes : Codes} {opcode : UInt64} {set : FieldSet} {instr : Instruction}
    (hm : opcode ≠ codes.load ∧ opcode ≠ codes.store)
    (ho : opcode = codes.gemm ∨ opcode = codes.finish)
    (h : Instruction.ofFields codes opcode set .gemm = .ok instr) :
    instr.shape = .gemm ∧ instr.ReadFrom codes opcode set := by
  rw [Instruction.ofFields, decodeGemm] at h
  split at h
  · split at h
    · cases h
    · rename_i hf
      cases h
      have hg := ho.resolve_right hf
      subst hg
      exact ⟨rfl, rfl, ⟨hm.1, hm.2, hf⟩, ⟨_, rfl, GemmOp.within_fields⟩, fun _ he => by cases he⟩
  · split at h
    · rename_i hf
      cases h
      subst hf
      exact ⟨rfl, rfl, hm, ⟨_, rfl, DepFlags.within_fields⟩, fun _ he => by cases he⟩
    · rename_i hf
      cases h
      have hg := ho.resolve_right hf
      subst hg
      exact ⟨rfl, rfl, ⟨hm.1, hm.2, hf⟩, ⟨_, rfl, DepFlags.within_fields⟩, fun _ he => by cases he⟩

theorem readFrom_alu {codes : Codes} {set : FieldSet} {instr : Instruction}
    (hm : codes.alu ≠ codes.load ∧ codes.alu ≠ codes.store ∧ codes.alu ≠ codes.gemm ∧
      codes.alu ≠ codes.finish)
    (h : Instruction.ofFields codes codes.alu set .alu = .ok instr) :
    instr.shape = .alu ∧ instr.ReadFrom codes codes.alu set := by
  rw [Instruction.ofFields, decodeAlu] at h
  split at h
  · cases h
  · rename_i func hf
    have hcode := Codes.aluFunc_of_aluFuncOf? hf
    have hchosen : Codes.Chosen.ChosenAlu codes func := by
      refine ⟨hm, fun code hc => ?_⟩
      rw [hcode] at hc
      cases hc
      exact hf
    dsimp only at h
    split at h
    · rename_i hi
      obtain ⟨rfl, hi⟩ := hi
      cases h
      refine ⟨rfl, rfl, hchosen, ⟨_, ?_, AluOp.within_fields rfl hi⟩, fun _ he => by cases he⟩
      rw [Instruction.fields, hcode]
      rfl
    · rename_i hi
      cases h
      refine ⟨rfl, rfl, hchosen, ⟨_, ?_, AluOp.within_fields rfl rfl⟩, ?_⟩
      · rw [Instruction.fields, hcode]
        rfl
      · intro op he
        injection he with hadd himm
        exact hi ⟨hadd, himm⟩

theorem Instruction.readFrom_ofFields {codes : Codes} {opcode : UInt64} {set : FieldSet}
    {shape : Shape} {instr : Instruction} (hs : codes.shapeOf? opcode = some shape)
    (h : ofFields codes opcode set shape = .ok instr) :
    instr.shape = shape ∧ instr.ReadFrom codes opcode set := by
  obtain ⟨rfl, ho⟩ | ⟨rfl, hm, ho⟩ | ⟨rfl, hm, rfl⟩ := Codes.shapeOf?_eq_some hs
  · exact readFrom_memory ho h
  · exact readFrom_gemm hm ho h
  · exact readFrom_alu hm h

theorem Instruction.names_fields {codes : Codes} {instr : Instruction}
    {values : List (FieldName × Nat)} (h : instr.fields codes = .ok values) :
    ∀ name ∈ values.map Prod.fst, name ∈ instr.shape.fields.map Prod.fst := by
  cases instr with
  | load op | store op | gemm op | finish deps | nop deps =>
    cases h
    simp [MemOp.fields, GemmOp.fields, DepFlags.fields, shape, Shape.fields, Shape.header]
  | alu func useImm op =>
    obtain ⟨code, _, h⟩ := exists_of_bind_ok h
    cases h
    simp [AluOp.fields, DepFlags.fields, shape, Shape.fields, Shape.header]
  | addi op =>
    obtain ⟨code, _, h⟩ := exists_of_bind_ok h
    cases h
    simp [AluOp.fields, DepFlags.fields, shape, Shape.fields, Shape.header]

theorem Instruction.canonical_eq_self {instr : Instruction}
    (hg : ∀ deps, instr ≠ .gemm (.idle deps)) (ha : ∀ op, instr ≠ .alu .add true op) :
    instr.canonical = instr := by
  cases instr with
  | gemm op =>
    rw [canonical, if_neg]
    intro hi
    exact hg op.deps (congrArg gemm hi)
  | alu func useImm op =>
    cases func <;> cases useImm <;> first | rfl | exact absurd rfl (ha op)
  | _ => rfl

namespace ShapeLayout

variable {isa : Isa} {shape : Shape} {layout : ShapeLayout}

theorem Of.names_blank (h : ShapeLayout.Of isa shape layout) :
    layout.blank.map Field.name = (shape.fields.map Prod.fst).map FieldName.text := by
  rw [← h.names, List.map_map, blank, List.map_map]
  rfl

theorem Of.totalBits_le (h : ShapeLayout.Of isa shape layout) :
    layout.blank.totalBits ≤ isa.instructionBits := by
  have hf := h.fit
  rwa [FieldSet.totalBits, blank, List.map_map]

theorem Of.value_fill_opcode (h : ShapeLayout.Of isa shape layout) {width : Nat}
    (hw : isa.width .opcode = .ok width) (n : Nat) :
    FieldSet.value (layout.blank.fill n) FieldName.opcode.text = n % 2 ^ width := by
  obtain ⟨slot, rest, hwidth, hname, hslots⟩ := h.opcode_first
  rw [hw] at hwidth
  cases hwidth
  rw [blank, hslots, List.map_cons, FieldSet.fill, FieldSet.value_cons, if_pos (by rw [hname])]

end ShapeLayout

namespace Encoder

variable {e : Encoder} {word : List UInt8} {instr : Instruction}

theorem exists_of_decode (hl : ∀ shape, ShapeLayout.Of e.isa shape (e.layout shape))
    (h : e.decode word = .ok instr) :
    word.length = e.wordBytes ∧
      ∃ width shape, e.isa.width .opcode = .ok width ∧
        e.codes.shapeOf? (.ofNat (Bytes.toNat word % 2 ^ width)) = some shape ∧
        Instruction.ofFields e.codes (.ofNat (Bytes.toNat word % 2 ^ width))
          ((e.layout shape).blank.fill (Bytes.toNat word)) shape = .ok instr := by
  have hn : word.length = e.wordBytes := by
    by_cases hn : word.length = e.wordBytes
    · exact hn
    · rw [decode, if_pos hn] at h
      cases h
  have hbits : e.isa.instructionBits = 8 * word.length := by
    have := (hl .memory).word
    rw [hn, wordBytes, Isa.instructionBytes]
    omega
  obtain ⟨slot, rest, hwidth, _, hslots⟩ := (hl .memory).opcode_first
  have hslot : slot.width ≤ 8 * word.length := by
    have hle := (hl .memory).totalBits_le
    rw [ShapeLayout.blank, hslots, List.map_cons, FieldSet.totalBits_cons] at hle
    have : slot.width ≤ e.isa.instructionBits := Nat.le_trans (Nat.le_add_right ..) hle
    omega
  have ho : Word.extract word 0 slot.width = .ok (Bytes.toNat word % 2 ^ slot.width) := by
    have h64 := Isa.width_le hwidth
    have hx : Word.extract word 0 slot.width = _ :=
      Word.extract_eq_ok h64 (by omega) (by omega)
    rwa [Nat.pow_zero, Nat.div_one] at hx
  have hu : ∀ shape, Word.unpack word (e.layout shape).blank =
      .ok ((e.layout shape).blank.fill (Bytes.toNat word)) := fun shape =>
    Word.unpack_eq_ok (hl shape).width_le (hl shape).totalBits_lt
      (by rw [← hbits]; exact (hl shape).totalBits_le)
  cases hs : e.codes.shapeOf? (.ofNat (Bytes.toNat word % 2 ^ slot.width)) with
  | none =>
    rw [decode, if_neg (not_not.mpr hn), hwidth] at h
    replace h := (DecodeError.lift_bind ho).symm.trans h
    simp only [hs] at h
    cases h
  | some shape =>
    rw [decode_eq_ofFields hn hwidth ho hs (template_eq_ok (hl shape)) (hu shape)] at h
    exact ⟨hn, slot.width, shape, hwidth, hs, h⟩

theorem exists_fields_of_values (hl : ∀ shape, ShapeLayout.Of e.isa shape (e.layout shape))
    {values : List (FieldName × Nat)} (hv : instr.fields e.codes = .ok values)
    (h : ∀ v ∈ values, v.2 < 2 ^ (e.layout instr.shape).blank.width v.1.text) :
    ∃ set, e.fields instr = .ok set := by
  have hof := hl instr.shape
  refine exists_bind_ok (template_eq_ok hof) (exists_bind_ok hv (FieldSet.exists_setAll ?_))
  intro v hm
  obtain ⟨u, hu, rfl⟩ := List.mem_map.mp hm
  refine ⟨?_, h u hu⟩
  rw [hof.names_blank]
  exact List.mem_map_of_mem (Instruction.names_fields hv u.1 (List.mem_map_of_mem hu))

theorem exists_pack (hl : ∀ shape, ShapeLayout.Of e.isa shape (e.layout shape)) {set : FieldSet}
    (h : e.fields instr = .ok set) : ∃ word, set.pack e.wordBits = .ok word := by
  obtain ⟨_, _, hk, hfits, _⟩ := fields_spec (hl instr.shape) h
  have ht := FieldSet.totalBits_eq_of_skeleton hk
  have hle := (hl instr.shape).totalBits_le
  exact ⟨_, FieldSet.pack_eq_ok (hl instr.shape).word (by rw [ht]; exact hle) hfits⟩

theorem exists_encode (hl : ∀ shape, ShapeLayout.Of e.isa shape (e.layout shape))
    (h : e.decode word = .ok instr) : ∃ canonical, e.encode instr = .ok canonical := by
  obtain ⟨hn, width, shape, hwidth, hs, hf⟩ := exists_of_decode hl h
  obtain ⟨rfl, hread⟩ := Instruction.readFrom_ofFields hs hf
  obtain ⟨values, hv, hwithin⟩ := hread.fields
  have hof := hl instr.shape
  have hfit := FieldSet.fits_fill (e.layout instr.shape).blank (Bytes.toNat word)
  have hbound : Within ((e.layout instr.shape).blank.fill (Bytes.toNat word))
      ((.opcode, (UInt64.ofNat (Bytes.toNat word % 2 ^ width)).toNat) :: values) := by
    rw [Within, List.forall_mem_cons, hof.value_fill_opcode hwidth, UInt64.toNat_ofNat']
    exact ⟨Nat.mod_le .., hwithin⟩
  obtain ⟨set, hset⟩ := exists_fields_of_values hl hv fun v hm => by
    rw [← FieldSet.width_eq_of_skeleton (FieldSet.skeleton_fill _ (Bytes.toNat word))]
    exact Nat.lt_of_le_of_lt (hbound v hm) (FieldSet.value_lt_width hfit _)
  exact exists_bind_ok hset (exists_pack hl hset)

/-- An idle GEMM is read only from a word whose reserved field is not zero. -/
theorem reserved_of_decode_idle (hl : ∀ shape, ShapeLayout.Of e.isa shape (e.layout shape))
    {deps : DepFlags} (h : e.decode word = .ok (.gemm (.idle deps))) :
    FieldSet.value (e.gemm.blank.fill (Bytes.toNat word)) FieldName.empty.text ≠ 0 := by
  obtain ⟨_, width, shape, _, hs, hf⟩ := exists_of_decode hl h
  obtain rfl := (Instruction.readFrom_ofFields hs hf).1
  have hnames := (FieldSet.names_eq_of_skeleton (FieldSet.skeleton_fill e.gemm.blank
    (Bytes.toNat word))).trans (hl .gemm).names_blank
  have hv := FieldSet.value_lt_of_width (FieldSet.skeleton_fill e.gemm.blank (Bytes.toNat word))
    (FieldSet.fits_fill e.gemm.blank (Bytes.toNat word)) (hl .gemm).width_le
  change decodeGemm e.codes _ (e.gemm.blank.fill (Bytes.toNat word)) = _ at hf
  generalize FieldSet.fill e.gemm.blank (Bytes.toNat word) = set at hf hnames hv ⊢
  intro hz
  rw [decodeGemm] at hf
  split at hf
  · rename_i field hb
    split at hf
    · cases hf
    · injection hf with hf
      injection hf with hf
      have hn : busyField? set = none := by
        rw [busyField?_eq_none_iff hnames]
        intro name hm
        by_cases hname : name = .empty
        · rw [hname, hz]
        · exact GemmOp.value_of_idle hv hf name hm hname
      rw [hn] at hb
      cases hb
  · split at hf <;> cases hf

/-- Every instruction that is read from a word has a word of its own, as long as the first, from
which it is read again. The one exception is a GEMM with nothing to do: it is read where the
reserved field alone is not zero, and its own word is that of Nop. -/
theorem stable_under_encoding {isa : Isa} (he : ofIsa isa = .ok e)
    (h : e.decode word = .ok instr) :
    ∃ canonical, e.encode instr = .ok canonical ∧ canonical.length = word.length ∧
      ((∀ deps, instr ≠ .gemm (.idle deps)) → e.decode canonical = .ok instr) ∧
      ∀ deps, instr = .gemm (.idle deps) →
        FieldSet.value (e.gemm.blank.fill (Bytes.toNat word)) FieldName.empty.text ≠ 0 ∧
          e.decode canonical = .ok (.nop deps) := by
  obtain ⟨rfl, hl, _⟩ := of_ofIsa he
  obtain ⟨hn, width, shape, hwidth, hs, hf⟩ := exists_of_decode hl h
  obtain ⟨_, hread⟩ := Instruction.readFrom_ofFields hs hf
  obtain ⟨canonical, hc⟩ := exists_encode hl h
  obtain ⟨hlen, hd⟩ := decode_encode_of_chosen hl hread.chosen hc
  refine ⟨canonical, hc, hlen.trans hn.symm, fun hi => ?_, ?_⟩
  · rw [hd, Instruction.canonical_eq_self hi hread.addition]
  · rintro deps rfl
    refine ⟨reserved_of_decode_idle hl h, ?_⟩
    exact hd.trans (congrArg Except.ok (if_pos rfl))

/-- A set in which GEMM and the ALU have one opcode, and in which flags have three bits. -/
def coinciding : Isa :=
  { scattered with
    values := { scattered.values with
      opcode := [("load", 9), ("store", 9), ("gemm", 2), ("finish", 31), ("alu", 2)] } }

/-- A GEMM whose flags are 5 and 2, with the reserved bit and the bits above the last field set. -/
def looseWord : List UInt8 :=
  [162, 0, 20, 0, 0, 0, 0, 0, 0, 8, 0, 0, 0, 0, 0, 0, 0, 0, 0, 0, 0, 0, 0, 255]

theorem stable_under_encoding_loose :
    ∃ e canonical, ofIsa coinciding = .ok e ∧
      e.decode looseWord =
        .ok (.gemm ⟨⟨true, false, false, false⟩, true, 1, 0, 0, 0, 0, 0, 0, 0, 0, 0⟩) ∧
      canonical = [34, 0, 18, 0, 0, 0, 0, 0, 0, 0, 0, 0, 0, 0, 0, 0, 0, 0, 0, 0, 0, 0, 0, 0] ∧
      e.decode canonical =
        .ok (.gemm ⟨⟨true, false, false, false⟩, true, 1, 0, 0, 0, 0, 0, 0, 0, 0, 0⟩) := by
  obtain ⟨e, he⟩ : ∃ e, ofIsa coinciding = .ok e := ⟨_, rfl⟩
  have hd : e.decode looseWord =
      .ok (.gemm ⟨⟨true, false, false, false⟩, true, 1, 0, 0, 0, 0, 0, 0, 0, 0, 0⟩) := by
    cases he
    rfl
  obtain ⟨canonical, hc, _, hr, _⟩ := stable_under_encoding he hd
  refine ⟨e, canonical, he, hd, ?_, hr (by intro deps hi; cases hi)⟩
  cases he
  exact (Except.ok.inj hc).symm

def reservedWord : List UInt8 :=
  [2, 0, 0, 0, 0, 0, 0, 128, 0, 0, 0, 0, 0, 0, 0, 0]

/-- Its own word is that of Nop: the bit is looked at when it is read, and not written. -/
theorem unstable_under_encoding :
    ¬ ∀ (isa : Isa) (e : Encoder) (word : List UInt8) (instr : Instruction),
      ofIsa isa = .ok e → e.decode word = .ok instr →
        ∃ canonical, e.encode instr = .ok canonical ∧ e.decode canonical = .ok instr := by
  intro h
  obtain ⟨e, he⟩ : ∃ e, ofIsa .reference = .ok e := ⟨_, rfl⟩
  have hd : e.decode reservedWord = .ok (.gemm (.idle ⟨false, false, false, false⟩)) := by
    cases he
    rfl
  obtain ⟨canonical, hc, hr⟩ := h _ _ _ _ he hd
  have hn : e.decode canonical = .ok (.nop ⟨false, false, false, false⟩) := by
    cases he
    cases hc
    rfl
  rw [hn] at hr
  cases hr

end Encoder

end TensorUnit.Vta
