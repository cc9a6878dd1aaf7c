import Mathlib.Data.List.Forall2
import TensorUnit.Proofs.Packing
import TensorUnit.Proofs.Vta.Tables
import TensorUnit.Vta.Decode

namespace TensorUnit.Vta

theorem FieldName.text_injective {a b : FieldName} (h : a.text = b.text) : a = b := by
  have hf : ∀ n : FieldName, all.find? (fun m => m.text = n.text) = some n := by
    intro n
    cases n <;> rfl
  have ha := hf a
  rw [h, hf b] at ha
  exact (Option.some.inj ha).symm

theorem FieldName.nodup_text {names : List FieldName} (h : names.Nodup) :
    (names.map text).Nodup :=
  List.Pairwise.map _ (fun _ _ hne => mt text_injective hne) h

theorem lookup_text (values : List (FieldName × Nat)) (name : FieldName) :
    (values.map fun v => (v.1.text, v.2)).lookup name.text = values.lookup name := by
  induction values with
  | nil => rfl
  | cons v vs ih =>
    obtain ⟨key, x⟩ := v
    rw [List.map_cons, List.lookup_cons, List.lookup_cons, ih]
    by_cases hk : name = key
    · rw [hk, beq_self_eq_true, beq_self_eq_true]
    · have ht : name.text ≠ key.text := fun h => hk (FieldName.text_injective h)
      rw [beq_eq_false_iff_ne.mpr hk, beq_eq_false_iff_ne.mpr ht]

theorem Isa.width_le {isa : Isa} {cls : WidthClass} {width : Nat} (h : isa.width cls = .ok width) :
    width ≤ 64 :=
  (width_eq_ok_iff.mp h).2.2

/-- A shape that has been laid out: words are whole bytes, and every field has its slot. -/
structure ShapeLayout.Of (isa : Isa) (shape : Shape) (layout : ShapeLayout) : Prop where
  word : isa.instructionBits ≠ 0 ∧ isa.instructionBits % 8 = 0
  slots : List.Forall₂ (fun f slot => slot.name = f.1 ∧ isa.width f.2 = .ok slot.width)
    shape.fields layout.slots
  fit : (layout.slots.map FieldSlot.width).sum ≤ isa.instructionBits

theorem ShapeLayout.forall₂_slotsAt {isa : Isa} {fields : List (FieldName × WidthClass)}
    (h : ∀ f ∈ fields, isa.width f.2 = .ok (isa.widthOf f.2)) (offset : Nat) :
    List.Forall₂ (fun f slot => slot.name = f.1 ∧ isa.width f.2 = .ok slot.width) fields
      (slotsAt isa offset fields) := by
  induction fields generalizing offset with
  | nil => exact .nil
  | cons f fs ih =>
    obtain ⟨hf, hfs⟩ := List.forall_mem_cons.mp h
    exact .cons ⟨rfl, hf⟩ (ih hfs _)

theorem ShapeLayout.of_resolve {isa : Isa} {shape : Shape} {layout : ShapeLayout}
    (h : resolve shape isa = .ok layout) : ShapeLayout.Of isa shape layout := by
  obtain ⟨hword, hw, hfit, rfl⟩ := resolve_eq_ok_iff.mp h
  refine ⟨⟨Nat.ne_of_gt hword.1, hword.2⟩, forall₂_slotsAt hw 0, ?_⟩
  rw [ofTables, sum_slotsAt]
  exact hfit

namespace ShapeLayout

def blank (layout : ShapeLayout) : FieldSet :=
  layout.slots.map fun slot => ⟨slot.name.text, slot.width, 0⟩

theorem value_blank (layout : ShapeLayout) (name : String) : layout.blank.value name = 0 := by
  refine FieldSet.value_eq_zero fun f hf _ => ?_
  obtain ⟨slot, _, rfl⟩ := List.mem_map.mp hf
  rfl

theorem fits_blank (layout : ShapeLayout) : ∀ f ∈ layout.blank, f.Fits := by
  intro f hf
  obtain ⟨slot, _, rfl⟩ := List.mem_map.mp hf
  exact Nat.two_pow_pos _

variable {isa : Isa} {shape : Shape} {layout : ShapeLayout}

theorem Of.names (h : ShapeLayout.Of isa shape layout) :
    layout.slots.map FieldSlot.name = shape.fields.map Prod.fst := by
  have hs := h.slots
  generalize shape.fields = fields at hs ⊢
  generalize layout.slots = slots at hs ⊢
  induction hs with
  | nil => rfl
  | cons hn _ ih => rw [List.map_cons, List.map_cons, hn.1, ih]

theorem Of.width_le (h : ShapeLayout.Of isa shape layout) :
    ∀ f ∈ layout.blank, f.width ≤ Field.maxWidth := by
  intro f hf
  obtain ⟨slot, hm, rfl⟩ := List.mem_map.mp hf
  have hs := h.slots
  generalize shape.fields = fields at hs
  generalize layout.slots = slots at hs hm
  clear hf
  induction hs with
  | nil => cases hm
  | cons hn _ ih =>
    rcases List.mem_cons.mp hm with rfl | hm
    · exact Isa.width_le hn.2
    · exact ih hm

theorem Of.totalBits_lt (h : ShapeLayout.Of isa shape layout) :
    layout.blank.totalBits < 2 ^ 32 := by
  have hl : layout.blank.length ≤ 18 := by
    rw [blank, List.length_map, ← List.length_map (f := FieldSlot.name), h.names]
    cases shape <;> decide
  have hb := FieldSet.totalBits_le h.width_le
  have hmul := Nat.mul_le_mul_right Field.maxWidth hl
  exact Nat.lt_of_le_of_lt (Nat.le_trans hb hmul) (by decide)

theorem Of.opcode_first (h : ShapeLayout.Of isa shape layout) :
    ∃ slot rest, isa.width .opcode = .ok slot.width ∧ slot.name = .opcode ∧
      layout.slots = slot :: rest := by
  have hs := h.slots
  obtain ⟨rest, hr⟩ : ∃ rest, shape.fields = (.opcode, .opcode) :: rest := by
    cases shape <;> exact ⟨_, rfl⟩
  rw [hr] at hs
  cases hc : layout.slots with
  | nil => rw [hc] at hs; cases hs
  | cons slot slots =>
    rw [hc] at hs
    cases hs with
    | cons hn _ => exact ⟨slot, slots, hn.2, hn.1, rfl⟩

end ShapeLayout

theorem Instruction.nodup_fields {codes : Codes} {instr : Instruction}
    {values : List (FieldName × Nat)} (h : instr.fields codes = .ok values) :
    (values.map Prod.fst).Nodup := by
  cases instr with
  | load op | store op | gemm op | finish deps | nop deps =>
    cases h
    simp [MemOp.fields, GemmOp.fields, DepFlags.fields]
  | alu func useImm op =>
    obtain ⟨code, _, h⟩ := exists_of_bind_ok h
    cases h
    simp [AluOp.fields, DepFlags.fields]
  | addi op =>
    obtain ⟨code, _, h⟩ := exists_of_bind_ok h
    cases h
    simp [AluOp.fields, DepFlags.fields]

def Holds (set : FieldSet) (values : List (FieldName × Nat)) : Prop :=
  ∀ name : FieldName, set.value name.text = (values.lookup name).getD 0

section Holds

variable {set : FieldSet} {code : Nat}

theorem DepFlags.ofFields_fields {deps : DepFlags} (rest : List (FieldName × Nat))
    (h : Holds set ((.opcode, code) :: (deps.fields ++ rest))) : DepFlags.ofFields set = deps := by
  obtain ⟨a, b, c, d⟩ := deps
  simp only [DepFlags.ofFields, flag, h _]
  cases a <;> cases b <;> cases c <;> cases d <;> rfl

theorem operand_eq {name : FieldName} {values : List (FieldName × Nat)} {x : UInt64}
    (h : Holds set values) (hx : values.lookup name = some x.toNat) : operand set name = x := by
  rw [operand, h, hx, Option.getD_some, UInt64.ofNat_toNat]

theorem flag_eq {name : FieldName} {values : List (FieldName × Nat)} {b : Bool}
    (h : Holds set values) (hb : values.lookup name = some b.toNat) : flag set name = b := by
  rw [flag, h, hb, Option.getD_some]
  cases b <;> rfl

theorem MemOp.ofFields_fields {op : MemOp} {memType : UInt64}
    (h : Holds set ((.opcode, code) :: op.fields memType)) : MemOp.ofFields set = op := by
  rw [MemOp.ofFields, DepFlags.ofFields_fields _ h, operand_eq h rfl, operand_eq h rfl,
    operand_eq h rfl, operand_eq h rfl, operand_eq h rfl, operand_eq h rfl, operand_eq h rfl,
    operand_eq h rfl, operand_eq h rfl]

theorem GemmOp.ofFields_fields {op : GemmOp}
    (h : Holds set ((.opcode, code) :: op.fields)) : GemmOp.ofFields set = op := by
  rw [GemmOp.ofFields, DepFlags.ofFields_fields _ h, flag_eq h rfl, operand_eq h rfl,
    operand_eq h rfl, operand_eq h rfl, operand_eq h rfl, operand_eq h rfl, operand_eq h rfl,
    operand_eq h rfl, operand_eq h rfl, operand_eq h rfl, operand_eq h rfl]

theorem AluOp.ofFields_fields {op : AluOp} {func : UInt64} {useImm : Bool}
    (h : Holds set ((.opcode, code) :: op.fields func useImm)) : AluOp.ofFields set = op := by
  rw [AluOp.ofFields, DepFlags.ofFields_fields _ h, flag_eq h rfl, operand_eq h rfl,
    operand_eq h rfl, operand_eq h rfl, operand_eq h rfl, operand_eq h rfl, operand_eq h rfl,
    operand_eq h rfl, operand_eq h rfl, operand_eq h rfl]

end Holds

def gemmWork : List FieldName :=
  [.resetFlag, .uopBegin, .uopEnd, .iterOut, .iterIn, .empty, .dstFactorOut, .dstFactorIn,
   .srcFactorOut, .srcFactorIn, .wgtFactorOut, .wgtFactorIn]

theorem gemm_fields_names :
    Shape.gemm.fields.map Prod.fst = Shape.header.map Prod.fst ++ gemmWork := rfl

theorem DepFlags.lookup_work (code : Nat) (deps : DepFlags) {name : FieldName}
    (h : name ∈ gemmWork) : ((FieldName.opcode, code) :: deps.fields).lookup name = none := by
  simp only [gemmWork, List.mem_cons, List.not_mem_nil, or_false] at h
  rcases h with rfl | rfl | rfl | rfl | rfl | rfl | rfl | rfl | rfl | rfl | rfl | rfl <;> rfl

theorem busyField?_eq_none_iff {set : FieldSet}
    (hs : set.map Field.name = (Shape.gemm.fields.map Prod.fst).map FieldName.text) :
    busyField? set = none ↔ ∀ name ∈ gemmWork, set.value name.text = 0 := by
  have hn : (set.map Field.name).Nodup := by
    rw [hs]
    exact FieldName.nodup_text (by decide)
  rw [busyField?, List.find?_eq_none]
  constructor
  · intro h name hw
    have hm : name.text ∈ set.map Field.name := by
      rw [hs, gemm_fields_names]
      exact List.mem_map_of_mem (List.mem_append_right _ hw)
    obtain ⟨f, hf, he⟩ := List.mem_map.mp hm
    have hd : ∀ p ∈ Shape.header, p.1.text ≠ f.name := by
      intro p hp ht
      have hi : p.1 = name := FieldName.text_injective (ht.trans he)
      have hx : ∀ q ∈ Shape.header, q.1 ∉ gemmWork := by decide
      exact hx p hp (hi ▸ hw)
    rw [← he, FieldSet.value_of_mem hn hf]
    by_contra hv
    exact h f hf (decide_eq_true ⟨hv, hd⟩)
  · intro h f hf
    have hm : f.name ∈ (Shape.gemm.fields.map Prod.fst).map FieldName.text := by
      rw [← hs]
      exact List.mem_map_of_mem hf
    obtain ⟨name, hi, ht⟩ := List.mem_map.mp hm
    rw [gemm_fields_names] at hi
    rcases List.mem_append.mp hi with hi | hi
    · obtain ⟨p, hp, he⟩ := List.mem_map.mp hi
      have ht' : p.1.text = f.name := by rw [he, ht]
      simp only [decide_eq_true_eq, not_and, not_forall]
      exact fun _ => ⟨p, hp, not_not.mpr ht'⟩
    · have hz := h name hi
      rw [ht, FieldSet.value_of_mem hn hf] at hz
      simp [hz]

def GemmOp.idle (deps : DepFlags) : GemmOp :=
  ⟨deps, false, 0, 0, 0, 0, 0, 0, 0, 0, 0, 0⟩

theorem GemmOp.fields_zero_iff (code : Nat) (op : GemmOp) :
    (∀ name ∈ gemmWork, (((FieldName.opcode, code) :: op.fields).lookup name).getD 0 = 0) ↔
      op = .idle op.deps := by
  constructor
  · intro h
    have reset : op.reset.toNat = 0 := h .resetFlag (by decide)
    have uopBegin : op.uopBegin.toNat = 0 := h .uopBegin (by decide)
    have uopEnd : op.uopEnd.toNat = 0 := h .uopEnd (by decide)
    have iterOut : op.iterOut.toNat = 0 := h .iterOut (by decide)
    have iterIn : op.iterIn.toNat = 0 := h .iterIn (by decide)
    have dstOut : op.dstFactorOut.toNat = 0 := h .dstFactorOut (by decide)
    have dstIn : op.dstFactorIn.toNat = 0 := h .dstFactorIn (by decide)
    have srcOut : op.srcFactorOut.toNat = 0 := h .srcFactorOut (by decide)
    have srcIn : op.srcFactorIn.toNat = 0 := h .srcFactorIn (by decide)
    have wgtOut : op.wgtFactorOut.toNat = 0 := h .wgtFactorOut (by decide)
    have wgtIn : op.wgtFactorIn.toNat = 0 := h .wgtFactorIn (by decide)
    have hz : ∀ x : UInt64, x.toNat = 0 → x = 0 := fun x hx => UInt64.toNat_inj.mp hx
    have hr : op.reset = false := by
      cases hb : op.reset with
      | false => rfl
      | true => rw [hb] at reset; cases reset
    obtain ⟨deps, _, _, _, _, _, _, _, _, _, _, _⟩ := op
    rw [idle, GemmOp.mk.injEq]
    exact ⟨rfl, hr, hz _ uopBegin, hz _ uopEnd, hz _ iterOut, hz _ iterIn, hz _ dstOut,
      hz _ dstIn, hz _ srcOut, hz _ srcIn, hz _ wgtOut, hz _ wgtIn⟩
  · intro h name hm
    rw [h]
    simp only [gemmWork, List.mem_cons, List.not_mem_nil, or_false] at hm
    rcases hm with rfl | rfl | rfl | rfl | rfl | rfl | rfl | rfl | rfl | rfl | rfl | rfl <;> rfl

structure Codes.Distinct (codes : Codes) : Prop where
  opcodes : [codes.load, codes.store, codes.gemm, codes.finish, codes.alu].Nodup
  funcs : ∀ f g code, codes.aluFunc? f = some code → codes.aluFunc? g = some code → f = g

/-- No two opcodes and no two of the ALU functions that the set has share a code. -/
structure Isa.Distinct (isa : Isa) : Prop where
  opcodes :
    (["load", "store", "gemm", "finish", "alu"].map fun key => isa.values.opcode.lookup key).Nodup
  funcs : ∀ f g code, isa.values.aluOpcode.lookup (AluFunc.key f) = some code →
    isa.values.aluOpcode.lookup (AluFunc.key g) = some code → f = g

theorem Isa.Distinct.of_resolve {isa : Isa} {codes : Codes} (hd : isa.Distinct)
    (h : Codes.resolve isa = .ok codes) : codes.Distinct := by
  have hof := Codes.of_resolve h
  constructor
  · have hn := hd.opcodes
    simp only [List.map_cons, List.map_nil, hof.load.1, hof.store.1, hof.gemm.1, hof.finish.1,
      hof.alu.1] at hn
    exact List.Pairwise.of_map some (fun _ _ hne he => hne (congrArg some he)) hn
  · intro f g code h1 h2
    rw [hof.lookup_func] at h1 h2
    exact hd.funcs f g code h1 h2

def Instruction.code (codes : Codes) : Instruction → UInt64
  | load _ => codes.load
  | store _ => codes.store
  | gemm _ | nop _ => codes.gemm
  | alu .. | addi _ => codes.alu
  | finish _ => codes.finish

theorem Instruction.lookup_opcode {codes : Codes} {instr : Instruction}
    {values : List (FieldName × Nat)} (h : instr.fields codes = .ok values) :
    values.lookup .opcode = some (instr.code codes).toNat := by
  cases instr with
  | load op | store op | gemm op | finish deps | nop deps =>
    cases h
    rfl
  | alu func useImm op =>
    obtain ⟨code, _, h⟩ := exists_of_bind_ok h
    cases h
    rfl
  | addi op =>
    obtain ⟨code, _, h⟩ := exists_of_bind_ok h
    cases h
    rfl

theorem Codes.Distinct.aluFuncOf?_eq {codes : Codes} (hd : codes.Distinct) {func : AluFunc}
    {code : UInt64} (h : codes.aluFunc func = .ok code) : codes.aluFuncOf? code = some func := by
  have hc : codes.aluFunc? func = some code := by
    unfold aluFunc at h
    split at h
    · cases h
      assumption
    · cases h
  have hm : func ∈ AluFunc.all := by cases func <;> decide
  cases hf : codes.aluFuncOf? code with
  | none => exact absurd (decide_eq_true hc) (List.find?_eq_none.mp hf func hm)
  | some g =>
    have hg : codes.aluFunc? g = some code :=
      of_decide_eq_true (List.find?_some (p := fun f => decide (codes.aluFunc? f = some code)) hf)
    rw [hd.funcs g func code hg hc]

/-- The kind of an instruction is the one that is read from its codes: no code that is compared
first is the same, nor is that of a function that is found first. -/
def Codes.Chosen (codes : Codes) : Instruction → Prop
  | .load _ => True
  | .store _ => codes.store ≠ codes.load
  | .gemm _ | .nop _ =>
    codes.gemm ≠ codes.load ∧ codes.gemm ≠ codes.store ∧ codes.gemm ≠ codes.finish
  | .finish _ => codes.finish ≠ codes.load ∧ codes.finish ≠ codes.store
  | .alu func .. => ChosenAlu func
  | .addi _ => ChosenAlu .add
where
  ChosenAlu (func : AluFunc) : Prop :=
    (codes.alu ≠ codes.load ∧ codes.alu ≠ codes.store ∧ codes.alu ≠ codes.gemm ∧
      codes.alu ≠ codes.finish) ∧
    ∀ code, codes.aluFunc func = .ok code → codes.aluFuncOf? code = some func

theorem Codes.Distinct.chosen {codes : Codes} (hd : codes.Distinct) (instr : Instruction) :
    codes.Chosen instr := by
  have ho := hd.opcodes
  simp only [List.nodup_cons, List.mem_cons, List.not_mem_nil, or_false, not_or] at ho
  obtain ⟨⟨hls, hlg, hlf, hla⟩, ⟨hsg, hsf, hsa⟩, ⟨hgf, hga⟩, hfa, _⟩ := ho
  have halu : ∀ func, Chosen.ChosenAlu codes func := fun func =>
    ⟨⟨Ne.symm hla, Ne.symm hsa, Ne.symm hga, Ne.symm hfa⟩, fun _ => hd.aluFuncOf?_eq⟩
  cases instr with
  | load op => trivial
  | store op => exact Ne.symm hls
  | gemm op | nop deps => exact ⟨Ne.symm hlg, Ne.symm hsg, hgf⟩
  | finish deps => exact ⟨Ne.symm hlf, Ne.symm hsf⟩
  | alu func useImm op => exact halu func
  | addi op => exact halu .add

theorem Codes.Chosen.shapeOf?_code {codes : Codes} {instr : Instruction}
    (h : codes.Chosen instr) : codes.shapeOf? (instr.code codes) = some instr.shape := by
  cases instr <;>
    simp only [Chosen, Chosen.ChosenAlu, shapeOf?, Instruction.code, Instruction.shape] at h ⊢ <;>
    simp [h]

/-- Of the instructions that share a word, the one that is read back. -/
def Instruction.canonical : Instruction → Instruction
  | gemm op => if op = .idle op.deps then nop op.deps else gemm op
  | alu .add true op => addi op
  | instr => instr

theorem Instruction.ofFields_fields {codes : Codes} {instr : Instruction}
    {values : List (FieldName × Nat)} {set : FieldSet} (hc : codes.Chosen instr)
    (h : instr.fields codes = .ok values)
    (hs : set.map Field.name = (instr.shape.fields.map Prod.fst).map FieldName.text)
    (hv : Holds set values) :
    ofFields codes (instr.code codes) set instr.shape = .ok instr.canonical := by
  cases instr with
  | load op =>
    cases h
    rw [shape, code, ofFields, if_pos rfl, decodeMemory, operand_eq hv rfl, if_pos rfl,
      MemOp.ofFields_fields hv]
    rfl
  | store op =>
    cases h
    rw [shape, code, ofFields, if_neg hc, decodeMemory, operand_eq hv rfl, if_pos rfl,
      MemOp.ofFields_fields hv]
    rfl
  | gemm op =>
    cases h
    have hi : busyField? set = none ↔ op = .idle op.deps := by
      rw [busyField?_eq_none_iff hs, ← GemmOp.fields_zero_iff codes.gemm.toNat]
      exact forall₂_congr fun name _ => by rw [hv name]
    rw [shape, code, ofFields, decodeGemm, canonical]
    by_cases hz : op = .idle op.deps
    · rw [hi.mpr hz, if_pos hz]
      change (if codes.gemm = codes.finish then _ else _) = _
      rw [if_neg hc.2.2, DepFlags.ofFields_fields _ hv]
    · cases hb : busyField? set with
      | none => exact absurd (hi.mp hb) hz
      | some field =>
        change (if codes.gemm = codes.finish then _ else _) = _
        rw [if_neg hc.2.2, if_neg hz, GemmOp.ofFields_fields hv]
  | alu func useImm op =>
    obtain ⟨code, hcode, h⟩ := exists_of_bind_ok h
    cases h
    rw [shape, ofFields, decodeAlu, operand_eq hv rfl, hc.2 code hcode]
    change (if func = .add ∧ flag set .useImm then _ else _) = _
    rw [flag_eq hv rfl, AluOp.ofFields_fields hv]
    cases func <;> cases useImm <;> rfl
  | addi op =>
    obtain ⟨code, hcode, h⟩ := exists_of_bind_ok h
    cases h
    rw [shape, ofFields, decodeAlu, operand_eq hv rfl, hc.2 code hcode]
    change (if AluFunc.add = .add ∧ flag set .useImm then _ else _) = _
    rw [flag_eq (b := true) hv rfl, AluOp.ofFields_fields hv]
    rfl
  | finish deps =>
    cases h
    have hi : busyField? set = none := by
      rw [busyField?_eq_none_iff hs]
      intro name hm
      rw [hv name, DepFlags.lookup_work _ deps hm]
      rfl
    rw [shape, code, ofFields, decodeGemm, hi]
    change (if codes.finish = codes.finish then _ else _) = _
    rw [if_pos rfl, DepFlags.ofFields_fields [] (by rwa [List.append_nil])]
    rfl
  | nop deps =>
    cases h
    have hi : busyField? set = none := by
      rw [busyField?_eq_none_iff hs]
      intro name hm
      rw [hv name, DepFlags.lookup_work _ deps hm]
      rfl
    rw [shape, code, ofFields, decodeGemm, hi]
    change (if codes.gemm = codes.finish then _ else _) = _
    rw [if_neg hc.2.2, DepFlags.ofFields_fields [] (by rwa [List.append_nil])]
    rfl

namespace Encoder

theorem of_ofIsa {isa : Isa} {e : Encoder} (h : ofIsa isa = .ok e) :
    e.isa = isa ∧ (∀ shape, ShapeLayout.Of isa shape (e.layout shape)) ∧
      Codes.resolve isa = .ok e.codes := by
  unfold ofIsa at h
  cases hm : ShapeLayout.resolve .memory isa with
  | error err => rw [hm] at h; cases h
  | ok memory =>
    cases hg : ShapeLayout.resolve .gemm isa with
    | error err => rw [hm, hg] at h; cases h
    | ok gemm =>
      cases ha : ShapeLayout.resolve .alu isa with
      | error err => rw [hm, hg, ha] at h; cases h
      | ok alu =>
        cases hc : Codes.resolve isa with
        | error err => rw [hm, hg, ha, hc] at h; cases h
        | ok codes =>
          rw [hm, hg, ha, hc] at h
          cases h
          refine ⟨rfl, fun shape => ?_, rfl⟩
          cases shape with
          | memory => exact ShapeLayout.of_resolve hm
          | gemm => exact ShapeLayout.of_resolve hg
          | alu => exact ShapeLayout.of_resolve ha

theorem template_eq_ok {e : Encoder} {isa : Isa} {shape : Shape}
    (h : ShapeLayout.Of isa shape (e.layout shape)) :
    e.template shape = .ok (e.layout shape).blank := by
  have hf := fun f hf => And.intro (h.width_le f hf) ((e.layout shape).fits_blank f hf)
  exact FieldSet.ofFields_eq_ok_iff.mpr ⟨hf, rfl⟩

theorem fields_spec {e : Encoder} {isa : Isa} {instr : Instruction} {set : FieldSet}
    (hl : ShapeLayout.Of isa instr.shape (e.layout instr.shape)) (h : e.fields instr = .ok set) :
    ∃ values, instr.fields e.codes = .ok values ∧
      set.skeleton = (e.layout instr.shape).blank.skeleton ∧ (∀ f ∈ set, f.Fits) ∧
      ∀ name : FieldName, set.value name.text = (values.lookup name).getD 0 := by
  unfold fields at h
  rw [template_eq_ok hl] at h
  cases hv : instr.fields e.codes with
  | error err => rw [hv] at h; cases h
  | ok values =>
    rw [hv] at h
    have hn : ((values.map fun v => (v.1.text, v.2)).map Prod.fst).Nodup := by
      have hnames := FieldName.nodup_text (Instruction.nodup_fields hv)
      rwa [List.map_map] at hnames ⊢
    obtain ⟨hs, hf, hval⟩ := FieldSet.setAll_spec h hn
    refine ⟨values, rfl, hs, hf (ShapeLayout.fits_blank _), fun name => ?_⟩
    rw [hval, lookup_text, ShapeLayout.value_blank]

theorem decode_eq_ofFields {e : Encoder} {word : List UInt8} {width code : Nat} {shape : Shape}
    {blank set : FieldSet} (hn : word.length = e.wordBytes) (hw : e.isa.width .opcode = .ok width)
    (ho : Word.extract word 0 width = .ok code)
    (hs : e.codes.shapeOf? (.ofNat code) = some shape) (ht : e.template shape = .ok blank)
    (hu : Word.unpack word blank = .ok set) :
    e.decode word = Instruction.ofFields e.codes (.ofNat code) set shape := by
  rw [decode, if_neg (Decidable.not_not.mpr hn), hw]
  apply (DecodeError.lift_bind ho).trans
  simp only [hs]
  rw [DecodeError.lift_bind ht, DecodeError.lift_bind hu]

theorem decode_encode_of_chosen {e : Encoder}
    (hl : ∀ shape, ShapeLayout.Of e.isa shape (e.layout shape)) {instr : Instruction}
    (hc : e.codes.Chosen instr) {word : List UInt8} (h : e.encode instr = .ok word) :
    word.length = e.wordBytes ∧ e.decode word = .ok instr.canonical := by
  obtain ⟨set, hs, hp⟩ := exists_of_bind_ok h
  obtain ⟨values, hv, hk, hf, hh⟩ := fields_spec (hl instr.shape) hs
  have hn : word.length = e.wordBytes := (FieldSet.toNat_pack hf hp).1
  have hb := (hl instr.shape).totalBits_lt
  have hw := (hl instr.shape).width_le
  obtain ⟨slot, rest, hwidth, hname, hslots⟩ := (hl instr.shape).opcode_first
  -- the first field is the opcode, and no field above it is read to find the shape
  have ho : Word.extract word 0 slot.width = .ok (instr.code e.codes).toNat := by
    have hc := hh .opcode
    rw [Instruction.lookup_opcode hv, Option.getD_some] at hc
    have hfirst := hk
    rw [ShapeLayout.blank, hslots, List.map_cons] at hfirst
    obtain ⟨f, fs, rfl, hfirst, _⟩ := List.map_eq_cons_iff.mp hfirst
    obtain ⟨hfn, hfw⟩ : f.name = slot.name.text ∧ f.width = slot.width := Prod.mk.inj hfirst
    rw [FieldSet.value_cons, if_pos (hfn.trans (by rw [hname]))] at hc
    have hx := Isa.width_le hwidth
    rw [← hc, ← hfw]
    exact Word.extract_pack [] hf (Nat.le_trans (Nat.le_of_eq hfw) hx)
      (by rw [hfw, FieldSet.totalBits_nil]; omega) hp
  have hu : Word.unpack word (e.layout instr.shape).blank = .ok set :=
    Word.unpack_pack hk.symm hf hw hb hp
  have hnames : set.map Field.name = (instr.shape.fields.map Prod.fst).map FieldName.text := by
    have hm := congrArg (List.map Prod.fst) hk
    rw [FieldSet.skeleton, FieldSet.skeleton, List.map_map, List.map_map] at hm
    rw [← (hl instr.shape).names, List.map_map]
    apply Eq.trans hm
    rw [ShapeLayout.blank, List.map_map]
    rfl
  have hcode : UInt64.ofNat (instr.code e.codes).toNat = instr.code e.codes :=
    UInt64.ofNat_toNat
  refine ⟨hn, ?_⟩
  rw [decode_eq_ofFields hn hwidth ho (by rw [hcode]; exact hc.shapeOf?_code)
    (template_eq_ok (hl instr.shape)) hu, hcode]
  exact Instruction.ofFields_fields hc hv hnames hh

theorem decode_encode {e : Encoder} (hd : e.codes.Distinct)
    (hl : ∀ shape, ShapeLayout.Of e.isa shape (e.layout shape)) {instr : Instruction}
    {word : List UInt8} (h : e.encode instr = .ok word) :
    word.length = e.wordBytes ∧ e.decode word = .ok instr.canonical :=
  decode_encode_of_chosen hl (hd.chosen instr) h

theorem wordBytes_pos {e : Encoder} {shape : Shape} {layout : ShapeLayout}
    (h : ShapeLayout.Of e.isa shape layout) : 0 < e.wordBytes := by
  have hw := h.word
  unfold wordBytes Isa.instructionBytes
  omega

theorem assemble_eq_ok {e : Encoder} {program : List Instruction} {stream : List UInt8}
    (h : e.assemble program = .ok stream) :
    ∃ ws, program.mapM e.encode = .ok ws ∧ stream = ws.flatten := by
  obtain ⟨ws, hw, h⟩ := exists_of_bind_ok h
  cases h
  exact ⟨ws, hw, rfl⟩

/-- Every program that has words is found again in them, up to the canonical form of its
instructions: there are as many words as instructions, and they decode in order. -/
theorem canonical_program_of_words {isa : Isa} {e : Encoder} (he : ofIsa isa = .ok e)
    (hd : isa.Distinct) {program : List Instruction} {stream : List UInt8}
    (h : e.assemble program = .ok stream) :
    stream.length = program.length * e.wordBytes ∧
      (Bytes.words e.wordBytes stream).mapM e.decode =
        .ok (program.map Instruction.canonical) := by
  obtain ⟨rfl, hl, hc⟩ := of_ofIsa he
  obtain ⟨ws, hw, rfl⟩ := assemble_eq_ok h
  exact Bytes.mapM_decode_words (wordBytes_pos (hl .memory))
    (fun _ _ => decode_encode (hd.of_resolve hc) hl) hw

/-- A set with flags of three bits and with fields that begin in the middle of a byte. It has no
shift, and its codes are in no order. -/
def scattered : Isa :=
  { Isa.reference with
    instructionBits := 192
    widths := ("flag", 3) :: ("opcode", 5) :: ("mem_sram", 64) :: ("alu_imm", 64) ::
      Isa.reference.widths
    values := { Isa.reference.values with
      opcode := [("load", 9), ("store", 30), ("gemm", 2), ("finish", 31), ("alu", 0)]
      aluOpcode := [("min", 3), ("max", 0), ("add", 1)] } }

def scatteredProgram : List Instruction :=
  [.gemm (.idle ⟨true, false, false, true⟩),
   .alu .add true ⟨⟨false, true, false, false⟩, true, 1, 2, 3, 4, 5, 6, 7, 8, 0xFFFFFFFFFFFFFFFF⟩,
   .store ⟨⟨false, false, true, false⟩, 0x123456789ABCDEF0, 7, 2, 3, 4, 1, 0, 15, 9⟩]

theorem canonical_program_of_words_scattered :
    ∃ e stream, ofIsa scattered = .ok e ∧ scattered.Distinct ∧
      e.assemble scatteredProgram = .ok stream ∧ stream.length = 3 * 24 ∧
      (Bytes.words 24 stream).mapM e.decode =
        .ok [.nop ⟨true, false, false, true⟩,
          .addi ⟨⟨false, true, false, false⟩, true, 1, 2, 3, 4, 5, 6, 7, 8, 0xFFFFFFFFFFFFFFFF⟩,
          .store ⟨⟨false, false, true, false⟩, 0x123456789ABCDEF0, 7, 2, 3, 4, 1, 0, 15, 9⟩] := by
  have hd : scattered.Distinct := by
    refine ⟨by decide, fun f g code hf hg => ?_⟩
    have h := hf.trans hg.symm
    cases f <;> cases g <;> first | rfl | exact absurd h (by decide)
  obtain ⟨e, he⟩ : ∃ e, ofIsa scattered = .ok e := ⟨_, rfl⟩
  obtain ⟨stream, hs⟩ : ∃ stream, e.assemble scatteredProgram = .ok stream := by
    cases he
    exact ⟨_, rfl⟩
  have h := canonical_program_of_words he hd hs
  cases he
  exact ⟨_, stream, rfl, hd, hs, h⟩

end Encoder

end TensorUnit.Vta
