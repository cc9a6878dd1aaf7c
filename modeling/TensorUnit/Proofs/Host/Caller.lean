import TensorUnit.Proofs.Architecture
import TensorUnit.Proofs.Host.Parts

namespace TensorUnit.Host

open Sim
open Tcu (Instruction)

namespace Driver

variable (d : Driver)

/-- The instruction comes from the caller of the operation, or from the model that is run. -/
def Supplies : Operation → Instruction → Prop
  | .dmaWrite stream, instr | .executeStream stream, instr =>
    ∃ program, Simulator.instructions d.layout stream = .ok program ∧ instr ∈ program
  | .writeInstructions program, instr | .executeProgram program, instr => instr ∈ program
  | .configure registers, instr => ∃ r ∈ registers, instr = .configure r.1 r.2
  | .run _, instr => ∃ loaded program, d.loaded = some loaded ∧
    Simulator.instructions d.layout loaded.program = .ok program ∧ instr ∈ program
  | _, _ => False

/-- The caller of the operation writes the byte of DRAM0 from the host. -/
def Overwrites : Operation → Nat → Prop
  | .write .dram0 address values, i =>
    address.val.toNat * d.arch.dataType.scalarBytes ≤ i ∧
      i < address.val.toNat * d.arch.dataType.scalarBytes +
        values.length * d.arch.dataType.scalarBytes
  | .writeBytes .dram0 offset bytes, i =>
    offset.val.toNat ≤ i ∧ i < offset.val.toNat + bytes.length
  | _, _ => False

/-- The caller of the operation does not write the row of DRAM0 from the host. -/
def LeavesAlone (op : Operation) (row : UInt64) : Prop :=
  ∀ i, d.Overwrites op i → i / d.arch.rowBytes ≠ row.toNat

variable {d}

theorem Makes.supplies (hd : d.Sound) {op part : Operation} (h : d.Makes op part)
    {instr : Instruction} (hi : d.Supplies part instr) :
    d.Supplies op instr ∨ ∃ base : RowAddress, ∃ size, size ≠ 0 ∧
      d.arch.checkRows .dram1 base.val size = .ok () ∧
      d.arch.checkRows .scratchpad base.val size = .ok () ∧
      instr = .move .dram1ToLocal base.val base.val (size - 1) := by
  cases h with
  | writeInstructions hs | executeProgram hs =>
    obtain ⟨program, hp, hm⟩ := hi
    rw [(Simulator.instructions_assemble hd.whole hs).1] at hp
    cases hp
    exact .inl hm
  | flush =>
    obtain ⟨program, hp, hm⟩ := hi
    have hl := Simulator.length_instructions hp
    rw [List.length_nil, Nat.zero_div] at hl
    rw [List.eq_nil_of_length_eq_zero hl] at hm
    cases hm
  | configure =>
    obtain ⟨r, hr, rfl⟩ := List.mem_map.mp hi
    exact .inl ⟨r, hr, rfl⟩
  | loadConsts hn hd hs => exact .inr ⟨_, _, hn, hd, hs, List.mem_singleton.mp hi⟩
  | constData | constRows | input | output => exact hi.elim
  | program hl =>
    obtain ⟨program, hp, hm⟩ := hi
    exact .inl ⟨_, program, hl, hp, hm⟩

theorem Sound.toNat_target (hd : d.Sound) : d.target.toNat = d.arch.dram0Depth.toNat - 2 := by
  rw [Driver.target, hd.target]
  exact UInt64.toNat_sub_of_le _ _ (UInt64.le_iff_toNat_le.mpr hd.depth)

theorem Sound.toNat_source (hd : d.Sound) : d.source.toNat = d.target.toNat + 1 := by
  have hdepth := hd.depth
  have hle : (1 : UInt64) ≤ d.arch.dram0Depth :=
    UInt64.le_iff_toNat_le.mpr (Nat.le_trans (by decide) hdepth)
  rw [hd.toNat_target, Driver.source, hd.source, UInt64.toNat_sub_of_le _ _ hle]
  change _ - 1 = _
  omega

theorem Placed.le_target (hd : d.Sound) (hp : d.Placed) {loaded : LoadedModel}
    (hl : d.loaded = some loaded) {region : Placement}
    (hr : region ∈ loaded.model.inputs ++ loaded.model.outputs) :
    region.base.toNat + region.size.toNat ≤ d.target.toNat := by
  have hnone := hp loaded hl
  rw [misplaced?, List.find?_eq_none] at hnone
  have hle : ¬ _ := hnone _ (List.mem_map_of_mem hr)
  rw [decide_eq_true_eq, UInt64.not_lt, UInt64.le_iff_toNat_le] at hle
  change (Architecture.rangeEnd region.base region.size).toNat ≤ _ at hle
  rw [Architecture.toNat_rangeEnd] at hle
  have htarget := hd.toNat_target
  have hlt := d.arch.dram0Depth.toNat_lt
  have hdepth := hd.depth
  omega

theorem Makes.overwrites (hd : d.Sound) (hp : d.Placed) {op part : Operation}
    (h : d.Makes op part) {i : Nat} (hi : d.Overwrites part i) :
    i / d.arch.rowBytes < d.target.toNat := by
  cases h with
  | input hl hr hf =>
    rename_i region address values
    obtain ⟨_, hhi⟩ := hi
    have hle := hp.le_target hd hl (List.mem_append_left _ hr)
    have hbase := AddressUnits.scalar_eq_ok_iff.mp hf.start
    have hfits := hf.fits
    rw [List.length_map] at hhi
    have hmul := Nat.mul_le_mul_right d.arch.dataType.scalarBytes hfits
    have hrow : (region.base.toNat + region.size.toNat) * d.arch.rowBytes =
        address.val.toNat * d.arch.dataType.scalarBytes +
          region.size.toNat * d.arch.arraySize.toNat * d.arch.dataType.scalarBytes := by
      rw [← hbase, Architecture.rowBytes, Nat.add_mul, Nat.mul_assoc, Nat.mul_assoc]
      rfl
    exact Nat.lt_of_lt_of_le (Nat.div_lt_of_lt_mul (by rw [Nat.mul_comm]; omega)) hle
  | writeInstructions | executeProgram | flush | configure | loadConsts | constData | constRows
  | program | output => exact hi.elim

theorem Makes.leavesAlone (hd : d.Sound) (hp : d.Placed) {op part : Operation}
    (h : d.Makes op part) {row : UInt64} (hr : d.target.toNat ≤ row.toNat) :
    d.LeavesAlone part row := by
  intro i hi he
  have hlt := h.overwrites hd hp hi
  omega

end Driver

end TensorUnit.Host
