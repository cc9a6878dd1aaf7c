import TensorUnit.Proofs.Vta.Canonical
import TensorUnit.Proofs.Vta.Tables

namespace TensorUnit.Vta

def DepFlags.operand (deps : DepFlags) : FieldName → Nat
  | .popPrevDep => deps.popPrev.toNat
  | .popNextDep => deps.popNext.toNat
  | .pushPrevDep => deps.pushPrev.toNat
  | .pushNextDep => deps.pushNext.toNat
  | _ => 0

def MemOp.operand (op : MemOp) : FieldName → Nat
  | .sramBase => op.sramBase.toNat
  | .dramBase => op.dramBase.toNat
  | .ySize => op.ySize.toNat
  | .xSize => op.xSize.toNat
  | .xStride => op.xStride.toNat
  | .yPad0 => op.yPad0.toNat
  | .yPad1 => op.yPad1.toNat
  | .xPad0 => op.xPad0.toNat
  | .xPad1 => op.xPad1.toNat
  | name => op.deps.operand name

def GemmOp.operand (op : GemmOp) : FieldName → Nat
  | .resetFlag => op.reset.toNat
  | .uopBegin => op.uopBegin.toNat
  | .uopEnd => op.uopEnd.toNat
  | .iterOut => op.iterOut.toNat
  | .iterIn => op.iterIn.toNat
  | .dstFactorOut => op.dstFactorOut.toNat
  | .dstFactorIn => op.dstFactorIn.toNat
  | .srcFactorOut => op.srcFactorOut.toNat
  | .srcFactorIn => op.srcFactorIn.toNat
  | .wgtFactorOut => op.wgtFactorOut.toNat
  | .wgtFactorIn => op.wgtFactorIn.toNat
  | name => op.deps.operand name

def AluOp.operand (op : AluOp) : FieldName → Nat
  | .resetReg => op.reset.toNat
  | .uopBegin => op.uopBegin.toNat
  | .uopEnd => op.uopEnd.toNat
  | .iterOut => op.iterOut.toNat
  | .iterIn => op.iterIn.toNat
  | .dstFactorOut => op.dstFactorOut.toNat
  | .dstFactorIn => op.dstFactorIn.toNat
  | .srcFactorOut => op.srcFactorOut.toNat
  | .srcFactorIn => op.srcFactorIn.toNat
  | .imm => op.imm.toNat
  | name => op.deps.operand name

namespace Instruction

/-- The operand that a field carries, and 0 for a field that the instruction does not mention. -/
def operand : Instruction → FieldName → Nat
  | load op, name | store op, name => op.operand name
  | gemm op, name => op.operand name
  | alu _ useImm _, .useImm => useImm.toNat
  | alu _ _ op, name | addi op, name => op.operand name
  | finish deps, name | nop deps, name => deps.operand name

/-- The ALU function whose code an instruction needs. -/
def func? : Instruction → Option AluFunc
  | alu func _ _ => some func
  | addi _ => some .add
  | _ => none

end Instruction

namespace Isa

/-- The value that the conventions of its kind give a field of an instruction. -/
def convention? (isa : Isa) : Instruction → FieldName → Option UInt64
  | instr, .opcode => isa.values.opcode.lookup instr.opcodeKey
  | .load _, .memType => isa.values.memId.lookup "acc"
  | .store _, .memType => isa.values.memId.lookup "out"
  | .alu func _ _, .aluOpcode => isa.values.aluOpcode.lookup func.key
  | .addi _, .aluOpcode => isa.values.aluOpcode.lookup "add"
  | .addi _, .useImm => some 1
  | _, _ => none

/-- What a field of an instruction holds. -/
def content (isa : Isa) (instr : Instruction) (name : FieldName) : Nat :=
  ((isa.convention? instr name).map UInt64.toNat).getD (instr.operand name)

def Provides (isa : Isa) (instr : Instruction) : Prop :=
  ∀ func, instr.func? = some func → ∃ code, isa.values.aluOpcode.lookup func.key = some code

variable {isa : Isa} {instr : Instruction} {codes : Codes}

/-- The conventions speak of fields that carry no operand. -/
theorem operand_eq_zero {name : FieldName} {value : UInt64}
    (h : isa.convention? instr name = some value) : instr.operand name = 0 := by
  cases name <;> cases instr <;> first | rfl | cases h

theorem convention?_eq_some {name : FieldName} {value : UInt64}
    (h : isa.convention? instr name = some value) :
    (name = .opcode ∧ isa.values.opcode.lookup instr.opcodeKey = some value) ∨
      (name = .memType ∧ ∃ key ∈ ["acc", "out"], isa.values.memId.lookup key = some value) ∨
      (name = .aluOpcode ∧ ∃ func : AluFunc, isa.values.aluOpcode.lookup func.key = some value) ∨
      (name = .useImm ∧ value = 1) := by
  cases name with
  | opcode => exact .inl ⟨rfl, h⟩
  | memType =>
    refine .inr (.inl ⟨rfl, ?_⟩)
    cases instr with
    | load op => exact ⟨"acc", by decide, h⟩
    | store op => exact ⟨"out", by decide, h⟩
    | _ => cases h
  | aluOpcode =>
    refine .inr (.inr (.inl ⟨rfl, ?_⟩))
    cases instr with
    | alu func useImm op => exact ⟨func, h⟩
    | addi op => exact ⟨.add, h⟩
    | _ => cases h
  | useImm =>
    refine .inr (.inr (.inr ⟨rfl, ?_⟩))
    cases instr with
    | addi op => exact (Option.some.inj h).symm
    | _ => cases h
  | _ => cases instr <;> cases h

theorem convention?_lt (hc : isa.Complete) {f : FieldName × WidthClass}
    (hf : f ∈ instr.shape.fields) {value : UInt64} (h : isa.convention? instr f.1 = some value) :
    value.toNat < 2 ^ isa.widthOf f.2 := by
  have hclass : ∀ shape : Shape, ∀ f ∈ shape.fields, (f.1 = .opcode → f.2 = .opcode) ∧
      (f.1 = .memType → f.2 = .memId) ∧ (f.1 = .aluOpcode → f.2 = .aluOpcode) := by
    intro shape
    cases shape <;> decide
  obtain ⟨hopcode, hmem, halu⟩ := hclass _ f hf
  obtain ⟨hn, hv⟩ | ⟨hn, key, hk, hv⟩ | ⟨hn, func, hv⟩ | ⟨_, rfl⟩ := convention?_eq_some h
  · have hkey : instr.opcodeKey ∈ ["load", "store", "gemm", "finish", "alu"] := by
      cases instr <;> simp [Instruction.opcodeKey]
    obtain ⟨code, hl, hlt⟩ := hc.opcodes _ hkey
    rw [hv] at hl
    cases hl
    rwa [hopcode hn]
  · obtain ⟨code, hl, hlt⟩ := hc.memIds key hk
    rw [hv] at hl
    cases hl
    rwa [hmem hn]
  · rw [halu hn]
    exact hc.funcs func value hv
  · obtain ⟨width, hl, hpos, _⟩ := hc.widths f.2
    rw [widthOf, hl]
    exact Nat.one_lt_two_pow (Nat.ne_of_gt hpos)

theorem content_cases (hc : isa.Complete) {f : FieldName × WidthClass}
    (hf : f ∈ instr.shape.fields) :
    isa.content instr f.1 = instr.operand f.1 ∨
      isa.content instr f.1 < 2 ^ isa.widthOf f.2 ∧ instr.operand f.1 = 0 := by
  rw [content]
  cases h : isa.convention? instr f.1 with
  | none => exact .inl rfl
  | some value => exact .inr ⟨convention?_lt hc hf h, operand_eq_zero h⟩

theorem lookup_fields (hc : Codes.Of isa codes) {values : List (FieldName × Nat)}
    (h : instr.fields codes = .ok values) (name : FieldName) :
    (values.lookup name).getD 0 = isa.content instr name := by
  cases instr with
  | load op =>
    cases h
    cases name with
    | opcode => simp only [content, convention?, Instruction.opcodeKey, hc.load.1]; rfl
    | memType => simp only [content, convention?, hc.memAcc.1]; rfl
    | _ => rfl
  | store op =>
    cases h
    cases name with
    | opcode => simp only [content, convention?, Instruction.opcodeKey, hc.store.1]; rfl
    | memType => simp only [content, convention?, hc.memOut.1]; rfl
    | _ => rfl
  | gemm op =>
    cases h
    cases name with
    | opcode => simp only [content, convention?, Instruction.opcodeKey, hc.gemm.1]; rfl
    | _ => rfl
  | finish deps =>
    cases h
    cases name with
    | opcode => simp only [content, convention?, Instruction.opcodeKey, hc.finish.1]; rfl
    | _ => rfl
  | nop deps =>
    cases h
    cases name with
    | opcode => simp only [content, convention?, Instruction.opcodeKey, hc.gemm.1]; rfl
    | _ => rfl
  | alu func useImm op =>
    obtain ⟨code, hcode, h⟩ := exists_of_bind_ok h
    cases h
    cases name with
    | opcode => simp only [content, convention?, Instruction.opcodeKey, hc.alu.1]; rfl
    | aluOpcode => simp only [content, convention?, hc.aluFunc_eq_ok_iff.mp hcode]; rfl
    | _ => rfl
  | addi op =>
    obtain ⟨code, hcode, h⟩ := exists_of_bind_ok h
    cases h
    have hadd : isa.values.aluOpcode.lookup "add" = some code := hc.aluFunc_eq_ok_iff.mp hcode
    cases name with
    | opcode => simp only [content, convention?, Instruction.opcodeKey, hc.alu.1]; rfl
    | aluOpcode => simp only [content, convention?, hadd]; rfl
    | _ => rfl

theorem mem_fields (hc : Codes.Of isa codes) {values : List (FieldName × Nat)}
    (h : instr.fields codes = .ok values) {v : FieldName × Nat} (hv : v ∈ values) :
    v.1 ∈ instr.shape.fields.map Prod.fst ∧ v.2 = isa.content instr v.1 := by
  refine ⟨Instruction.names_fields h v.1 (List.mem_map_of_mem hv), ?_⟩
  rw [← lookup_fields hc h, lookup_of_mem (Instruction.nodup_fields h) hv, Option.getD_some]

theorem exists_fields (hc : Codes.Of isa codes) (h : isa.Provides instr) :
    ∃ values, instr.fields codes = .ok values := by
  have hfunc : ∀ func, instr.func? = some func → ∃ code, codes.aluFunc func = .ok code := by
    intro func hf
    obtain ⟨code, hl⟩ := h func hf
    exact ⟨code, hc.aluFunc_eq_ok_iff.mpr hl⟩
  cases instr with
  | alu func useImm op =>
    obtain ⟨code, hcode⟩ := hfunc func rfl
    exact exists_bind_ok hcode ⟨_, rfl⟩
  | addi op =>
    obtain ⟨code, hcode⟩ := hfunc .add rfl
    exact exists_bind_ok hcode ⟨_, rfl⟩
  | _ => exact ⟨_, rfl⟩

theorem fields_eq_error (hc : Codes.Of isa codes) (h : ¬ isa.Provides instr) :
    ∃ func, instr.func? = some func ∧
      instr.fields codes = .error (.spec (.missingKey "value.alu_opcode" func.key)) := by
  simp only [Provides, not_forall, not_exists] at h
  obtain ⟨func, hf, hl⟩ := h
  refine ⟨func, hf, ?_⟩
  have hcode : codes.aluFunc func = .error (.spec (.missingKey "value.alu_opcode" func.key)) := by
    rw [Codes.aluFunc, hc.lookup_func, Option.eq_none_iff_forall_ne_some.mpr hl]
  cases instr with
  | alu func useImm op =>
    cases hf
    rw [Instruction.fields, hcode]
    rfl
  | addi op =>
    cases hf
    rw [Instruction.fields, hcode]
    rfl
  | _ => cases hf

end Isa

namespace ShapeLayout

variable {isa : Isa} {shape : Shape} {layout : ShapeLayout} {slot : FieldSlot}

theorem Of.nodup_blank (h : ShapeLayout.Of isa shape layout) :
    (layout.blank.map Field.name).Nodup := by
  rw [h.names_blank]
  exact FieldName.nodup_text (by cases shape <;> decide)

theorem Of.width_blank (h : ShapeLayout.Of isa shape layout) (hs : slot ∈ layout.slots) :
    layout.blank.width slot.name.text = slot.width :=
  FieldSet.width_of_mem (f := ⟨slot.name.text, slot.width, 0⟩) h.nodup_blank
    (List.mem_map_of_mem hs)

theorem exists_slot (isa : Isa) {name : FieldName} (h : name ∈ shape.fields.map Prod.fst) :
    ∃ slot ∈ (ofTables isa shape).slots, slot.name = name := by
  obtain ⟨f, hf, rfl⟩ := List.mem_map.mp h
  have hm := List.mem_map_of_mem (f := fun f : FieldName × WidthClass => (f.1, isa.widthOf f.2)) hf
  rw [← map_slotsAt isa 0] at hm
  obtain ⟨slot, hs, he⟩ := List.mem_map.mp hm
  exact ⟨slot, hs, (Prod.mk.inj he).1⟩

theorem exists_field (h : slot ∈ (ofTables isa shape).slots) :
    ∃ f ∈ shape.fields, f.1 = slot.name ∧ isa.widthOf f.2 = slot.width := by
  have hm := List.mem_map_of_mem (f := fun slot : FieldSlot => (slot.name, slot.width)) h
  rw [ofTables, map_slotsAt] at hm
  obtain ⟨f, hf, he⟩ := List.mem_map.mp hm
  exact ⟨f, hf, Prod.mk.inj he⟩

end ShapeLayout

namespace Encoder

variable {isa : Isa} {e : Encoder} {instr : Instruction}

theorem content_cases (hc : isa.Complete) {slot : FieldSlot}
    (hs : slot ∈ (ShapeLayout.ofTables isa instr.shape).slots) :
    isa.content instr slot.name = instr.operand slot.name ∨
      isa.content instr slot.name < 2 ^ slot.width ∧ instr.operand slot.name = 0 := by
  obtain ⟨f, hf, hn, hw⟩ := ShapeLayout.exists_field hs
  rw [← hn, ← hw]
  exact Isa.content_cases hc hf

theorem content_lt_iff (hc : isa.Complete) {slot : FieldSlot}
    (hs : slot ∈ (ShapeLayout.ofTables isa instr.shape).slots) :
    isa.content instr slot.name < 2 ^ slot.width ↔ instr.operand slot.name < 2 ^ slot.width := by
  obtain he | ⟨hlt, h0⟩ := content_cases hc hs
  · rw [he]
  · rw [h0]
    exact iff_of_true hlt (Nat.two_pow_pos _)

theorem exists_fields (he : ofIsa isa = .ok e) (hp : isa.Provides instr)
    (h : ∀ slot ∈ (e.layout instr.shape).slots, isa.content instr slot.name < 2 ^ slot.width) :
    ∃ set, e.fields instr = .ok set := by
  obtain ⟨_, rfl, hlayout, hcodes⟩ := ofIsa_spec he
  have hl := (of_ofIsa he).2.1
  obtain ⟨values, hv⟩ := Isa.exists_fields hcodes hp
  refine exists_fields_of_values hl hv fun v hm => ?_
  obtain ⟨hname, hcontent⟩ := Isa.mem_fields hcodes hv hm
  obtain ⟨slot, hs, hslot⟩ := ShapeLayout.exists_slot e.isa hname
  rw [← hlayout] at hs
  rw [hcontent, ← hslot, (hl instr.shape).width_blank hs]
  exact h slot hs

/-- The set of an instruction holds what the tables and the operands say. -/
theorem fields_content (he : ofIsa isa = .ok e) {set : FieldSet} (h : e.fields instr = .ok set) :
    set.skeleton = (e.layout instr.shape).blank.skeleton ∧ (∀ f ∈ set, f.Fits) ∧
      ∀ name : FieldName, set.value name.text = isa.content instr name := by
  obtain ⟨values, hv, hk, hf, hval⟩ := fields_spec ((of_ofIsa he).2.1 instr.shape) h
  refine ⟨hk, hf, fun name => ?_⟩
  rw [hval, Isa.lookup_fields (ofIsa_spec he).2.2.2 hv]

theorem fields_eq_error (he : ofIsa isa = .ok e) (hp : isa.Provides instr) {error : EncodeError}
    (h : e.fields instr = .error error) :
    ∃ slot ∈ (e.layout instr.shape).slots, 2 ^ slot.width ≤ instr.operand slot.name ∧
      error = .valueOutOfRange slot.name.text (instr.operand slot.name) slot.width := by
  obtain ⟨hc, _, hlayout, hcodes⟩ := ofIsa_spec he
  have hof := (of_ofIsa he).2.1 instr.shape
  obtain ⟨values, hv⟩ := Isa.exists_fields hcodes hp
  rw [fields, template_eq_ok hof, hv] at h
  have hnames : ∀ v ∈ values.map fun v => (v.1.text, v.2),
      v.1 ∈ (e.layout instr.shape).blank.map Field.name := by
    intro v hm
    obtain ⟨u, hu, rfl⟩ := List.mem_map.mp hm
    rw [hof.names_blank]
    exact List.mem_map_of_mem (Isa.mem_fields hcodes hv hu).1
  obtain ⟨v, hm, hle, herr⟩ := FieldSet.setAll_eq_error hnames h
  obtain ⟨u, hu, rfl⟩ := List.mem_map.mp hm
  obtain ⟨hname, hcontent⟩ := Isa.mem_fields hcodes hv hu
  obtain ⟨slot, hs, hslot⟩ := ShapeLayout.exists_slot isa hname
  have hs' : slot ∈ (e.layout instr.shape).slots := by rwa [hlayout]
  rw [hcontent, ← hslot, hof.width_blank hs'] at hle herr
  obtain hop | ⟨hlt, _⟩ := content_cases hc hs
  · rw [hop] at hle herr
    exact ⟨slot, hs', hle, herr⟩
  · exact absurd hlt (Nat.not_lt.mpr hle)

theorem encode_eq_ok_iff (he : ofIsa isa = .ok e) :
    (∃ word, e.encode instr = .ok word) ↔ isa.Provides instr ∧
      ∀ slot ∈ (e.layout instr.shape).slots, instr.operand slot.name < 2 ^ slot.width := by
  obtain ⟨hc, _, hlayout, hcodes⟩ := ofIsa_spec he
  have hof := (of_ofIsa he).2.1 instr.shape
  constructor
  · rintro ⟨word, h⟩
    obtain ⟨set, hset, _⟩ := exists_of_bind_ok h
    obtain ⟨values, hv, _⟩ := fields_spec hof hset
    refine ⟨?_, fun slot hs => ?_⟩
    · by_contra hp
      obtain ⟨func, _, herr⟩ := Isa.fields_eq_error hcodes hp
      rw [hv] at herr
      cases herr
    · obtain ⟨hk, hf, hval⟩ := fields_content he hset
      have hlt := FieldSet.value_lt_width hf slot.name.text
      rw [hval, FieldSet.width_eq_of_skeleton hk, hof.width_blank hs] at hlt
      rw [hlayout] at hs
      exact (content_lt_iff hc hs).mp hlt
  · rintro ⟨hp, h⟩
    obtain ⟨set, hset⟩ := exists_fields he hp fun slot hs =>
      (content_lt_iff hc (hlayout instr.shape ▸ hs)).mpr (h slot hs)
    obtain ⟨rfl, hl, _⟩ := of_ofIsa he
    exact exists_bind_ok hset (exists_pack hl hset)

theorem encode_eq_error (he : ofIsa isa = .ok e) (hp : isa.Provides instr) {error : EncodeError}
    (h : e.encode instr = .error error) :
    ∃ slot ∈ (e.layout instr.shape).slots, 2 ^ slot.width ≤ instr.operand slot.name ∧
      error = .valueOutOfRange slot.name.text (instr.operand slot.name) slot.width := by
  cases hset : e.fields instr with
  | ok set =>
    obtain ⟨rfl, hl, _⟩ := of_ofIsa he
    obtain ⟨word, hword⟩ := exists_pack hl hset
    rw [encode, hset] at h
    exact absurd (hword.symm.trans h) nofun
  | error err =>
    rw [encode, hset] at h
    cases h
    exact fields_eq_error he hp hset

theorem encode_of_missing (he : ofIsa isa = .ok e) (hp : ¬ isa.Provides instr) :
    ∃ func, instr.func? = some func ∧
      e.encode instr = .error (.spec (.missingKey "value.alu_opcode" func.key)) := by
  obtain ⟨func, hfunc, herr⟩ := Isa.fields_eq_error (ofIsa_spec he).2.2.2 hp
  refine ⟨func, hfunc, ?_⟩
  rw [encode, fields, template_eq_ok ((of_ofIsa he).2.1 instr.shape), herr]
  rfl

/-- Every slot of a word holds the content of its field. -/
theorem extract_encode (he : ofIsa isa = .ok e) {word : List UInt8}
    (h : e.encode instr = .ok word) {slot : FieldSlot}
    (hs : slot ∈ (e.layout instr.shape).slots) :
    Word.extract word slot.offset slot.width = .ok (isa.content instr slot.name) := by
  have hlayout := (ofIsa_spec he).2.2.1 instr.shape
  have hof := (of_ofIsa he).2.1 instr.shape
  obtain ⟨set, hset, hp⟩ := exists_of_bind_ok h
  obtain ⟨hk, hf, hval⟩ := fields_content he hset
  have hnodup := hof.nodup_blank
  have hbits := hof.totalBits_lt
  have hwide := hof.width_le
  rw [← FieldSet.names_eq_of_skeleton hk] at hnodup
  rw [← FieldSet.totalBits_eq_of_skeleton hk] at hbits
  -- the set splits where the slots do, and the fields before `slot` fill the bits below it
  obtain ⟨before, after, hsplit⟩ := List.append_of_mem hs
  have hskel : (e.layout instr.shape).blank.skeleton =
      (before.map fun slot => (slot.name.text, slot.width)) ++
        (slot.name.text, slot.width) :: after.map fun slot => (slot.name.text, slot.width) := by
    rw [ShapeLayout.blank, hsplit, FieldSet.skeleton, List.map_map, List.map_append, List.map_cons]
    rfl
  obtain ⟨fields, rest, rfl, hfields, hrest⟩ := List.map_eq_append_iff.mp (hk.trans hskel)
  obtain ⟨f, fs, rfl, hfirst, _⟩ := List.map_eq_cons_iff.mp hrest
  obtain ⟨hn, hw⟩ := Prod.mk.inj hfirst
  have hoffset : FieldSet.totalBits fields = slot.offset := by
    rw [hlayout] at hsplit
    have hwidths := congrArg (List.map Prod.snd) hfields
    rw [List.map_map, List.map_map] at hwidths
    rw [ShapeLayout.offset_slotsAt hsplit, Nat.zero_add]
    exact congrArg List.sum hwidths
  have hf64 : f.width ≤ Field.maxWidth := by
    rw [hw]
    exact hwide _ (List.mem_map_of_mem hs)
  have hvalue := FieldSet.value_of_mem hnodup (List.mem_append_right _ (List.mem_cons_self ..))
  rw [hn, hval] at hvalue
  rw [FieldSet.totalBits_append, FieldSet.totalBits_cons] at hbits
  rw [← hoffset, ← hw, hvalue]
  exact Word.extract_pack fields hf hf64 (by omega) hp

theorem testBit_encode (he : ofIsa isa = .ok e) {word : List UInt8}
    (h : e.encode instr = .ok word) {bit : Nat} (hb : (e.layout instr.shape).totalBits ≤ bit) :
    (Bytes.toNat word).testBit bit = false := by
  have hlayout := (ofIsa_spec he).2.2.1 instr.shape
  obtain ⟨set, hset, hp⟩ := exists_of_bind_ok h
  obtain ⟨hk, hf, _⟩ := fields_content he hset
  have ht : set.totalBits = (e.layout instr.shape).totalBits := by
    rw [FieldSet.totalBits_eq_of_skeleton hk, FieldSet.totalBits, ShapeLayout.blank, List.map_map,
      hlayout]
    exact ShapeLayout.sum_slotsAt isa 0 instr.shape.fields
  rw [(FieldSet.toNat_pack hf hp).2.2]
  apply Nat.testBit_lt_two_pow
  exact Nat.lt_of_lt_of_le (FieldSet.place_lt set hf) (Nat.pow_le_pow_right (by decide) (ht ▸ hb))

/-- Making an encoder fails only for an incomplete set. From then on an instruction fails for an
operand that is too large or, where the set leaves out an ALU function, for that function, and a
word holds in every slot what the tables or the instruction say. -/
theorem encoding_of_tables (isa : Isa) :
    ((∃ e, ofIsa isa = .ok e) ↔ isa.Complete) ∧
      ∀ e, ofIsa isa = .ok e →
        (∀ shape, e.layout shape = ShapeLayout.ofTables isa shape) ∧
        ∀ instr : Instruction,
          ((∃ word, e.encode instr = .ok word) ↔ isa.Provides instr ∧
            ∀ slot ∈ (e.layout instr.shape).slots,
              instr.operand slot.name < 2 ^ slot.width) ∧
          (¬ isa.Provides instr → ∃ func error, instr.func? = some func ∧
            error = .spec (.missingKey "value.alu_opcode" func.key) ∧
            error.isConfiguration = true ∧ e.encode instr = .error error) ∧
          (isa.Provides instr → ∀ error, e.encode instr = .error error →
            ∃ slot ∈ (e.layout instr.shape).slots, 2 ^ slot.width ≤ instr.operand slot.name ∧
              error = .valueOutOfRange slot.name.text (instr.operand slot.name) slot.width) ∧
          ∀ word, e.encode instr = .ok word → 8 * word.length = isa.instructionBits ∧
            (∀ slot ∈ (e.layout instr.shape).slots,
              Word.extract word slot.offset slot.width = .ok (isa.content instr slot.name)) ∧
            ∀ bit, (e.layout instr.shape).totalBits ≤ bit →
              (Bytes.toNat word).testBit bit = false := by
  refine ⟨exists_ofIsa_iff, fun e he => ?_⟩
  obtain ⟨hc, rfl, hlayout, _⟩ := ofIsa_spec he
  refine ⟨hlayout, fun instr => ⟨encode_eq_ok_iff he, ?_, ?_, fun word h => ⟨?_, ?_, ?_⟩⟩⟩
  · intro hp
    obtain ⟨func, hfunc, herr⟩ := encode_of_missing he hp
    exact ⟨func, _, hfunc, rfl, rfl, herr⟩
  · exact fun hp error => encode_eq_error he hp
  · obtain ⟨set, hset, hp⟩ := exists_of_bind_ok h
    rw [(FieldSet.toNat_pack (fields_content he hset).2.1 hp).1, wordBits]
    have := hc.word
    omega
  · exact fun slot => extract_encode he h
  · exact fun bit => testBit_encode he h

/-- The scattered set has an addition and no shift, and its pads have 4 bits. -/
theorem encoding_of_tables_scattered :
    ∃ e word error, ofIsa scattered = .ok e ∧
      e.encode (.addi ⟨⟨true, false, false, true⟩, true, 1, 2, 3, 4, 5, 6, 7, 8, 9⟩) = .ok word ∧
      Word.extract word 122 3 = .ok 1 ∧ Word.extract word 125 64 = .ok 9 ∧
      (Bytes.toNat word).testBit 190 = false ∧
      e.encode (.alu .shr true ⟨⟨true, false, false, true⟩, true, 1, 2, 3, 4, 5, 6, 7, 8, 9⟩) =
        .error error ∧ error.isConfiguration = true ∧
      ¬ ∃ word, e.encode (.store ⟨⟨false, false, true, false⟩, 1, 7, 2, 3, 4, 1, 0, 16, 9⟩) =
        .ok word := by
  obtain ⟨e, he⟩ : ∃ e, ofIsa scattered = .ok e := ⟨_, rfl⟩
  obtain ⟨hlayout, hinstr⟩ := (encoding_of_tables scattered).2 e he
  obtain ⟨hadd, _, _, hplace⟩ :=
    hinstr (.addi ⟨⟨true, false, false, true⟩, true, 1, 2, 3, 4, 5, 6, 7, 8, 9⟩)
  obtain ⟨_, hmissing, _, _⟩ :=
    hinstr (.alu .shr true ⟨⟨true, false, false, true⟩, true, 1, 2, 3, 4, 5, 6, 7, 8, 9⟩)
  obtain ⟨hstore, _⟩ := hinstr (.store ⟨⟨false, false, true, false⟩, 1, 7, 2, 3, 4, 1, 0, 16, 9⟩)
  simp only [hlayout] at hadd hplace hstore
  have hprovides : scattered.Provides
      (.addi ⟨⟨true, false, false, true⟩, true, 1, 2, 3, 4, 5, 6, 7, 8, 9⟩) := by
    intro func hf
    cases hf
    exact ⟨1, by decide⟩
  have hshift : ¬ scattered.Provides
      (.alu .shr true ⟨⟨true, false, false, true⟩, true, 1, 2, 3, 4, 5, 6, 7, 8, 9⟩) := by
    intro hp
    obtain ⟨code, hcode⟩ := hp .shr rfl
    have hnone : scattered.values.aluOpcode.lookup AluFunc.shr.key = none := by decide
    rw [hnone] at hcode
    cases hcode
  obtain ⟨word, hword⟩ := hadd.mpr ⟨hprovides, by decide⟩
  obtain ⟨_, hslots, habove⟩ := hplace word hword
  obtain ⟨_, error, _, _, hconf, herr⟩ := hmissing hshift
  exact ⟨e, word, error, he, hword, hslots ⟨.useImm, 3, 122⟩ (by decide),
    hslots ⟨.imm, 64, 125⟩ (by decide), habove 190 (by decide), herr, hconf,
    fun h => absurd (hstore.mp h).2 (by decide)⟩

end Encoder

end TensorUnit.Vta
