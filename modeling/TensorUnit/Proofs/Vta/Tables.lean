import TensorUnit.Proofs.Action
import TensorUnit.Vta.Encoder

namespace TensorUnit.Vta

namespace Isa

variable {isa : Isa} {cls : WidthClass}

def widthOf (isa : Isa) (cls : WidthClass) : Nat :=
  (isa.widths.lookup cls.key).getD 0

def shapeBits (isa : Isa) (shape : Shape) : Nat :=
  (shape.fields.map fun f => isa.widthOf f.2).sum

def Entry (table : Table UInt64) (key : String) (width : Nat) (value : UInt64) : Prop :=
  table.lookup key = some value ∧ value.toNat < 2 ^ width

/-- The tables hold all that instructions need. An ALU function may be missing, but where it has a
code, the code fits. -/
structure Complete (isa : Isa) : Prop where
  word : 0 < isa.instructionBits ∧ isa.instructionBits % 8 = 0
  widths : ∀ cls : WidthClass, ∃ width, isa.widths.lookup cls.key = some width ∧
    1 ≤ width ∧ width ≤ 64
  shapes : ∀ shape : Shape, isa.shapeBits shape ≤ isa.instructionBits
  opcodes : ∀ key ∈ ["load", "store", "gemm", "finish", "alu"],
    ∃ value, Entry isa.values.opcode key (isa.widthOf .opcode) value
  memIds : ∀ key ∈ ["acc", "out"],
    ∃ value, Entry isa.values.memId key (isa.widthOf .memId) value
  funcs : ∀ (func : AluFunc) (value : UInt64), isa.values.aluOpcode.lookup func.key = some value →
    value.toNat < 2 ^ isa.widthOf .aluOpcode

theorem width_eq_ok_iff {width : Nat} :
    isa.width cls = .ok width ↔
      isa.widths.lookup cls.key = some width ∧ 1 ≤ width ∧ width ≤ 64 := by
  unfold Isa.width
  cases isa.widths.lookup cls.key with
  | none => simp
  | some w =>
    by_cases hw : w = 0 ∨ 64 < w
    · simp only [if_pos hw, reduceCtorEq, Option.some.injEq, false_iff]
      omega
    · simp only [if_neg hw, Except.ok.injEq, Option.some.injEq]
      omega

theorem widthOf_eq {width : Nat} (h : isa.width cls = .ok width) : isa.widthOf cls = width := by
  rw [widthOf, (width_eq_ok_iff.mp h).1]
  rfl

theorem Complete.width (h : isa.Complete) (cls : WidthClass) :
    isa.width cls = .ok (isa.widthOf cls) := by
  obtain ⟨width, hw⟩ := h.widths cls
  have hok := width_eq_ok_iff.mpr hw
  rwa [widthOf_eq hok]

end Isa

theorem WidthClass.exists_field (cls : WidthClass) :
    ∃ shape : Shape, ∃ f ∈ shape.fields, f.2 = cls := by
  suffices h : ∃ shape ∈ [Shape.memory, .gemm, .alu], ∃ f ∈ shape.fields, f.2 = cls by
    obtain ⟨shape, _, hf⟩ := h
    exact ⟨shape, hf⟩
  cases cls <;> decide

namespace ShapeLayout

variable {isa : Isa} {shape : Shape}

def slotsAt (isa : Isa) (offset : Nat) : List (FieldName × WidthClass) → List FieldSlot
  | [] => []
  | (name, cls) :: rest =>
    ⟨name, isa.widthOf cls, offset⟩ :: slotsAt isa (offset + isa.widthOf cls) rest

/-- The shape as the tables lay it out. -/
def ofTables (isa : Isa) (shape : Shape) : ShapeLayout where
  shape := shape
  slots := slotsAt isa 0 shape.fields
  totalBits := isa.shapeBits shape
  wordBits := isa.instructionBits

theorem map_slotsAt (isa : Isa) (offset : Nat) (fields : List (FieldName × WidthClass)) :
    (slotsAt isa offset fields).map (fun slot => (slot.name, slot.width)) =
      fields.map fun f => (f.1, isa.widthOf f.2) := by
  induction fields generalizing offset with
  | nil => rfl
  | cons f fs ih =>
    obtain ⟨name, cls⟩ := f
    rw [slotsAt, List.map_cons, List.map_cons, ih]

theorem sum_slotsAt (isa : Isa) (offset : Nat) (fields : List (FieldName × WidthClass)) :
    ((slotsAt isa offset fields).map FieldSlot.width).sum =
      (fields.map fun f => isa.widthOf f.2).sum := by
  have h := congrArg (List.map Prod.snd) (map_slotsAt isa offset fields)
  rw [List.map_map, List.map_map] at h
  exact congrArg List.sum h

theorem offset_slotsAt {fields : List (FieldName × WidthClass)} {offset : Nat}
    {before after : List FieldSlot} {slot : FieldSlot}
    (h : slotsAt isa offset fields = before ++ slot :: after) :
    slot.offset = offset + (before.map FieldSlot.width).sum := by
  induction fields generalizing offset before with
  | nil => simp [slotsAt] at h
  | cons f fs ih =>
    obtain ⟨name, cls⟩ := f
    rw [slotsAt] at h
    cases before with
    | nil =>
      rw [List.nil_append, List.cons.injEq] at h
      rw [← h.1]
      rfl
    | cons first before =>
      rw [List.cons_append, List.cons.injEq] at h
      rw [ih h.2, ← h.1, List.map_cons, List.sum_cons, Nat.add_assoc]

theorem slotsFrom_eq_ok_iff {offset : Nat} {fields : List (FieldName × WidthClass)}
    {slots : List FieldSlot} :
    slotsFrom isa offset fields = .ok slots ↔
      (∀ f ∈ fields, isa.width f.2 = .ok (isa.widthOf f.2)) ∧
        slots = slotsAt isa offset fields := by
  induction fields generalizing offset slots with
  | nil => simp [slotsFrom, slotsAt, eq_comm]
  | cons f fs ih =>
    obtain ⟨name, cls⟩ := f
    constructor
    · intro h
      obtain ⟨width, hw, h⟩ := exists_of_bind_ok h
      obtain ⟨rest, hr, h⟩ := exists_of_bind_ok h
      obtain ⟨hfs, rfl⟩ := ih.mp hr
      cases h
      obtain rfl := Isa.widthOf_eq hw
      exact ⟨List.forall_mem_cons.mpr ⟨hw, hfs⟩, rfl⟩
    · rintro ⟨hw, rfl⟩
      obtain ⟨hw, hfs⟩ := List.forall_mem_cons.mp hw
      have hr : slotsFrom isa (offset + isa.widthOf cls) fs = .ok _ := ih.mpr ⟨hfs, rfl⟩
      rw [slotsFrom, hw]
      change (slotsFrom isa (offset + isa.widthOf cls) fs >>= _) = _
      rw [hr]
      rfl

theorem resolve_eq_ok_iff {layout : ShapeLayout} :
    resolve shape isa = .ok layout ↔
      (0 < isa.instructionBits ∧ isa.instructionBits % 8 = 0) ∧
        (∀ f ∈ shape.fields, isa.width f.2 = .ok (isa.widthOf f.2)) ∧
        isa.shapeBits shape ≤ isa.instructionBits ∧ layout = ofTables isa shape := by
  constructor
  · intro h
    obtain ⟨_, hv, h⟩ := exists_of_bind_ok h
    obtain ⟨slots, hs, h⟩ := exists_of_bind_ok h
    obtain ⟨hw, rfl⟩ := slotsFrom_eq_ok_iff.mp hs
    rw [Isa.validate] at hv
    split at hv
    · cases hv
    · rename_i hword
      change (if isa.instructionBits < _ then _ else _) = _ at h
      rw [sum_slotsAt] at h
      split at h
      · cases h
      · rename_i hfit
        cases h
        exact ⟨by omega, hw, Nat.not_lt.mp hfit, rfl⟩
  · rintro ⟨hword, hw, hfit, rfl⟩
    have hs : slotsFrom isa 0 shape.fields = .ok _ := slotsFrom_eq_ok_iff.mpr ⟨hw, rfl⟩
    have hv : isa.validate = .ok () := by
      rw [Isa.validate, if_neg (by omega)]
    rw [resolve, hv, hs]
    change (if isa.instructionBits < _ then _ else _) = _
    rw [if_neg (by rw [sum_slotsAt]; exact Nat.not_lt.mpr hfit), sum_slotsAt]
    rfl

end ShapeLayout

theorem lift_eq_ok_iff {α : Type} {x : Except SpecError α} {a : α} :
    (liftM x : Except EncodeError α) = .ok a ↔ x = .ok a := by
  cases x with
  | error e => exact ⟨nofun, nofun⟩
  | ok b => exact ⟨fun h => congrArg Except.ok (Except.ok.inj h), fun h => congrArg _ h⟩

namespace Codes

variable {isa : Isa} {codes : Codes}

structure Of (isa : Isa) (codes : Codes) : Prop where
  load : Isa.Entry isa.values.opcode "load" (isa.widthOf .opcode) codes.load
  store : Isa.Entry isa.values.opcode "store" (isa.widthOf .opcode) codes.store
  gemm : Isa.Entry isa.values.opcode "gemm" (isa.widthOf .opcode) codes.gemm
  finish : Isa.Entry isa.values.opcode "finish" (isa.widthOf .opcode) codes.finish
  alu : Isa.Entry isa.values.opcode "alu" (isa.widthOf .opcode) codes.alu
  memAcc : Isa.Entry isa.values.memId "acc" (isa.widthOf .memId) codes.memAcc
  memOut : Isa.Entry isa.values.memId "out" (isa.widthOf .memId) codes.memOut
  lookup_func : ∀ func, codes.aluFunc? func = isa.values.aluOpcode.lookup func.key
  func_lt : ∀ func code, codes.aluFunc? func = some code → code.toNat < 2 ^ isa.widthOf .aluOpcode

theorem checked_eq_ok_iff {table key : String} {width : Nat} {value code : UInt64} :
    checked table key width value = .ok code ↔ value = code ∧ value.toNat < 2 ^ width := by
  unfold checked
  split <;> simp [*]

theorem entry_checked_iff {table : Table UInt64} {title key : String} {width : Nat}
    {code : UInt64} :
    (liftM (Isa.entry table title key) >>= checked title key width :
      Except EncodeError UInt64) = .ok code ↔ Isa.Entry table key width code := by
  unfold Isa.Entry Isa.entry
  cases table.lookup key with
  | none =>
    constructor
    · intro h
      cases h
    · rintro ⟨h, _⟩
      cases h
  | some value =>
    refine checked_eq_ok_iff.trans ?_
    constructor
    · rintro ⟨rfl, h⟩
      exact ⟨rfl, h⟩
    · rintro ⟨h, hv⟩
      obtain rfl := Option.some.inj h
      exact ⟨rfl, hv⟩

theorem resolveFunc_eq_ok_iff {func : AluFunc} {width : Nat} {code? : Option UInt64} :
    resolveFunc isa width func = .ok code? ↔
      code? = isa.values.aluOpcode.lookup func.key ∧
        ∀ code, isa.values.aluOpcode.lookup func.key = some code → code.toNat < 2 ^ width := by
  unfold resolveFunc
  cases isa.values.aluOpcode.lookup func.key with
  | none => simp [eq_comm]
  | some value =>
    by_cases hv : value.toNat < 2 ^ width
    · simp [checked, hv, Functor.map, Except.map, eq_comm]
    · simp [checked, hv, Functor.map, Except.map]

theorem of_resolve (h : resolve isa = .ok codes) : Of isa codes := by
  obtain ⟨opcodeWidth, ho, h⟩ := exists_of_bind_ok h
  obtain ⟨memIdWidth, hm, h⟩ := exists_of_bind_ok h
  obtain ⟨aluWidth, ha, h⟩ := exists_of_bind_ok h
  obtain ⟨min, hmin, h⟩ := exists_of_bind_ok h
  obtain ⟨max, hmax, h⟩ := exists_of_bind_ok h
  obtain ⟨add, hadd, h⟩ := exists_of_bind_ok h
  obtain ⟨shr, hshr, h⟩ := exists_of_bind_ok h
  obtain ⟨load, hload, h⟩ := exists_of_bind_ok h
  obtain ⟨store, hstore, h⟩ := exists_of_bind_ok h
  obtain ⟨gemm, hgemm, h⟩ := exists_of_bind_ok h
  obtain ⟨finish, hfinish, h⟩ := exists_of_bind_ok h
  obtain ⟨alu, halu, h⟩ := exists_of_bind_ok h
  obtain ⟨memAcc, hacc, h⟩ := exists_of_bind_ok h
  obtain ⟨memOut, hout, h⟩ := exists_of_bind_ok h
  have hcodes := Except.ok.inj h
  obtain rfl := Isa.widthOf_eq (lift_eq_ok_iff.mp ho)
  obtain rfl := Isa.widthOf_eq (lift_eq_ok_iff.mp hm)
  obtain rfl := Isa.widthOf_eq (lift_eq_ok_iff.mp ha)
  have hfunc : ∀ func, resolveFunc isa (isa.widthOf .aluOpcode) func =
      .ok (codes.aluFunc? func) := by
    intro func
    rw [← hcodes]
    cases func with
    | min => exact hmin
    | max => exact hmax
    | add => exact hadd
    | shr => exact hshr
  subst hcodes
  exact ⟨entry_checked_iff.mp hload, entry_checked_iff.mp hstore, entry_checked_iff.mp hgemm,
    entry_checked_iff.mp hfinish, entry_checked_iff.mp halu, entry_checked_iff.mp hacc,
    entry_checked_iff.mp hout, fun func => (resolveFunc_eq_ok_iff.mp (hfunc func)).1,
    fun func code hc => (resolveFunc_eq_ok_iff.mp (hfunc func)).2 code
      ((resolveFunc_eq_ok_iff.mp (hfunc func)).1.symm.trans hc)⟩

theorem Of.aluFunc_eq_ok_iff (h : Of isa codes) {func : AluFunc} {code : UInt64} :
    codes.aluFunc func = .ok code ↔ isa.values.aluOpcode.lookup func.key = some code := by
  rw [aluFunc, h.lookup_func]
  cases isa.values.aluOpcode.lookup func.key <;> simp

theorem exists_resolve (h : isa.Complete) : ∃ codes, resolve isa = .ok codes := by
  have hfunc : ∀ func : AluFunc, resolveFunc isa (isa.widthOf .aluOpcode) func = .ok _ :=
    fun func => resolveFunc_eq_ok_iff.mpr ⟨rfl, h.funcs func⟩
  have hwidth : ∀ cls, (liftM (isa.width cls) : Except EncodeError Nat) = .ok (isa.widthOf cls) :=
    fun cls => lift_eq_ok_iff.mpr (h.width cls)
  have hopcode := h.opcodes
  have hmem := h.memIds
  simp only [List.forall_mem_cons, List.not_mem_nil, false_implies, implies_true, and_true]
    at hopcode hmem
  obtain ⟨⟨load, hload⟩, ⟨store, hstore⟩, ⟨gemm, hgemm⟩, ⟨finish, hfinish⟩, ⟨alu, halu⟩⟩ := hopcode
  obtain ⟨⟨acc, hacc⟩, ⟨out, hout⟩⟩ := hmem
  exact exists_bind_ok (hwidth .opcode) <| exists_bind_ok (hwidth .memId) <|
    exists_bind_ok (hwidth .aluOpcode) <| exists_bind_ok (hfunc .min) <|
    exists_bind_ok (hfunc .max) <| exists_bind_ok (hfunc .add) <| exists_bind_ok (hfunc .shr) <|
    exists_bind_ok (entry_checked_iff.mpr hload) <|
    exists_bind_ok (entry_checked_iff.mpr hstore) <|
    exists_bind_ok (entry_checked_iff.mpr hgemm) <|
    exists_bind_ok (entry_checked_iff.mpr hfinish) <|
    exists_bind_ok (entry_checked_iff.mpr halu) <|
    exists_bind_ok (entry_checked_iff.mpr hacc) <|
    exists_bind_ok (entry_checked_iff.mpr hout) ⟨_, rfl⟩

end Codes

namespace Encoder

variable {isa : Isa} {e : Encoder}

/-- An encoder lays out its shapes as the tables say, and the tables are complete. -/
theorem ofIsa_spec (h : ofIsa isa = .ok e) :
    isa.Complete ∧ e.isa = isa ∧ (∀ shape, e.layout shape = ShapeLayout.ofTables isa shape) ∧
      Codes.Of isa e.codes := by
  obtain ⟨memory, hm, h⟩ := exists_of_bind_ok h
  obtain ⟨gemm, hg, h⟩ := exists_of_bind_ok h
  obtain ⟨alu, ha, h⟩ := exists_of_bind_ok h
  obtain ⟨codes, hc, h⟩ := exists_of_bind_ok h
  cases h
  obtain ⟨hword, hwm, hfm, rfl⟩ := ShapeLayout.resolve_eq_ok_iff.mp (lift_eq_ok_iff.mp hm)
  obtain ⟨_, hwg, hfg, rfl⟩ := ShapeLayout.resolve_eq_ok_iff.mp (lift_eq_ok_iff.mp hg)
  obtain ⟨_, hwa, hfa, rfl⟩ := ShapeLayout.resolve_eq_ok_iff.mp (lift_eq_ok_iff.mp ha)
  have hcodes := Codes.of_resolve hc
  have hwidth : ∀ cls, isa.width cls = .ok (isa.widthOf cls) := by
    intro cls
    obtain ⟨shape, f, hf, rfl⟩ := cls.exists_field
    cases shape with
    | memory => exact hwm f hf
    | gemm => exact hwg f hf
    | alu => exact hwa f hf
  refine ⟨?_, rfl, fun shape => by cases shape <;> rfl, hcodes⟩
  constructor
  case word => exact hword
  case widths => exact fun cls => ⟨_, Isa.width_eq_ok_iff.mp (hwidth cls)⟩
  case shapes =>
    intro shape
    cases shape with
    | memory => exact hfm
    | gemm => exact hfg
    | alu => exact hfa
  case opcodes =>
    simp only [List.forall_mem_cons]
    exact ⟨⟨_, hcodes.load⟩, ⟨_, hcodes.store⟩, ⟨_, hcodes.gemm⟩, ⟨_, hcodes.finish⟩,
      ⟨_, hcodes.alu⟩, nofun⟩
  case memIds =>
    simp only [List.forall_mem_cons]
    exact ⟨⟨_, hcodes.memAcc⟩, ⟨_, hcodes.memOut⟩, nofun⟩
  case funcs =>
    intro func value hv
    exact hcodes.func_lt func value ((hcodes.lookup_func func).trans hv)

theorem exists_ofIsa_iff : (∃ e, ofIsa isa = .ok e) ↔ isa.Complete := by
  constructor
  · rintro ⟨e, he⟩
    exact (ofIsa_spec he).1
  · intro h
    have hr : ∀ shape, (liftM (ShapeLayout.resolve shape isa) : Except EncodeError ShapeLayout) =
        .ok (ShapeLayout.ofTables isa shape) := fun shape =>
      lift_eq_ok_iff.mpr (ShapeLayout.resolve_eq_ok_iff.mpr
        ⟨h.word, fun f _ => h.width f.2, h.shapes shape, rfl⟩)
    obtain ⟨codes, hc⟩ := Codes.exists_resolve h
    exact exists_bind_ok (hr .memory) <| exists_bind_ok (hr .gemm) <| exists_bind_ok (hr .alu) <|
      exists_bind_ok hc ⟨_, rfl⟩

end Encoder

end TensorUnit.Vta
