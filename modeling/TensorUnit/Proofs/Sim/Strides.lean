import TensorUnit.Proofs.Sim.Cells
import TensorUnit.Tcu.Decode

namespace TensorUnit.Sim

open Remote (DeviceFault)
open Tcu (Instruction MoveFlag StridedAddress)

/-- The row that a strided address comes to in some steps. -/
def rowAt (a : StridedAddress) (i : Nat) : Nat :=
  a.address.toNat + i * 2 ^ a.stride.toNat

namespace Memory

def bytesAt (m : Memory) (address length : Nat) : List UInt8 :=
  ((m.regions.find? fun r => (Extent.of r).Contains address length).map fun r =>
    windowBytes r.2.contents (address - r.2.base.toNat) length).getD []

def patch (m : Memory) (address : Nat) (data : List UInt8) : Memory :=
  { m with regions := m.regions.map (patched address data) }

variable {m : Memory}

theorem extents_patch (m : Memory) (address : Nat) (data : List UInt8) :
    (m.patch address data).extents = m.extents := by
  rw [extents, extents, patch, List.map_map]
  refine List.map_congr_left fun r _ => ?_
  rw [Function.comp_apply, patched]
  split
  · rw [Extent.of, size_overwriteBytes]
    rfl
  · rfl

theorem readAt?_of_contains {e : Extent} (he : e ∈ m.extents) {address : UInt64} {length : Nat}
    (hc : e.Contains address.toNat length) :
    m.readAt? address length = some (m.bytesAt address.toNat length) := by
  have hfind : (fun r : String × Region => r.2.covers address length) =
      fun r => decide ((Extent.of r).Contains address.toNat length) := by
    funext r
    rw [Bool.eq_iff_iff, decide_eq_true_eq, covers_iff_contains]
  have hsome := (m.isSome_readAt?_iff address length).mpr ⟨e, he, hc⟩
  obtain ⟨bytes, hb⟩ := Option.isSome_iff_exists.mp hsome
  rw [hb]
  rw [readAt?, regionAt?, hfind, Option.map_map] at hb
  exact congrArg some (congrArg (Option.getD · []) hb).symm

theorem Apart.writeAt_eq_patch (h : m.Apart) {address : UInt64} {data : List UInt8}
    (hl : 0 < data.length) : m.writeAt address data = m.patch address.toNat data :=
  h.writeAt_eq_map hl

end Memory

namespace Device

def physical (d : Device) (space : Space) (row : Nat) : Nat :=
  (d.register (Machine.offsetRegister space)).toNat * blockBytes.toNat + row * d.arch.rowBytes

def localAt (d : Device) (row : Nat) : List Int :=
  window d.scratchpad (row * d.width) d.width

def localBytes (d : Device) (row : Nat) : List UInt8 :=
  (d.localAt row).flatMap d.arch.dataType.scalarToBytes

def accumulatorAt (d : Device) (row : Nat) : List Int :=
  window d.accumulator (row * d.width) d.width

end Device

namespace Machine

def withLocal (m : Machine) (row : Nat) (values : List Int) : Machine :=
  { m with device := { m.device with
    scratchpad := overwrite m.device.scratchpad (row * m.device.width) values } }

def withAccumulator (m : Machine) (row : Nat) (values : List Int) : Machine :=
  { m with device := { m.device with
    accumulator := overwrite m.device.accumulator (row * m.device.width) values } }

/-- The rows are there: the unit has them, and a buffer has the bytes of a row of DRAM. -/
structure Admits (m : Machine) (flag : MoveFlag) (inner outer : Nat) : Prop where
  scratchpad : inner < m.device.arch.localDepth.toNat
  remote : outer < (m.device.arch.depth flag.remote).toNat
  mapped : ∀ k : Bank, flag.remote = k.space → ∃ e ∈ m.memory.extents,
    e.Contains (m.device.physical flag.remote outer) m.device.arch.rowBytes

def refusal (m : Machine) (flag : MoveFlag) (inner outer : Nat) : DeviceFault :=
  if 2 ^ 64 ≤ inner ∨ 2 ^ 64 ≤ outer then .addressOverflow
  else if m.device.arch.localDepth.toNat ≤ inner then .localRow (.ofNat inner)
  else match flag.remote with
    | .dram0 | .dram1 =>
      if (m.device.arch.depth flag.remote).toNat ≤ outer then .dramRow flag.remote (.ofNat outer)
      else if 2 ^ 64 ≤ m.device.physical flag.remote outer then .addressOverflow
      else .unmapped (.ofNat (m.device.physical flag.remote outer))
    | .accumulator | .scratchpad => .accumulatorRow (.ofNat outer)

def carry (flag : MoveFlag) (inner outer : Nat) (m : Machine) : Machine :=
  let dataType := m.device.arch.dataType
  match flag.remote with
  | .dram0 | .dram1 =>
    let address := m.device.physical flag.remote outer
    if flag.isToLocal then
      m.withLocal inner
        (dataType.ofBytes (m.memory.bytesAt address m.device.arch.rowBytes))
    else { m with memory := m.memory.patch address (m.device.localBytes inner) }
  | .accumulator | .scratchpad =>
    match flag with
    | .accumulatorToLocal => m.withLocal inner (m.device.accumulatorAt outer)
    | .localToAccumulatorAccumulate =>
      m.withAccumulator outer ((m.device.accumulatorAt outer).zipWith
        (fun a l => dataType.saturate (a + l)) (m.device.localAt inner))
    | _ => m.withAccumulator outer (m.device.localAt inner)

/-- The machine when the first rows of a strided move have been moved. -/
def carryRows (flag : MoveFlag) (scratchpad address : StridedAddress) : Nat → Machine → Machine
  | 0, m => m
  | n + 1, m =>
    carry flag (rowAt scratchpad n) (rowAt address n) (carryRows flag scratchpad address n m)

variable {arch : Architecture} {m : Machine} {flag : MoveFlag} {localRow row : UInt64}

theorem carry_load {k : Bank} (hk : flag.remote = k.space) (ht : flag.isToLocal) (inner outer : Nat)
    (m : Machine) :
    carry flag inner outer m = m.withLocal inner (m.device.arch.dataType.ofBytes
      (m.memory.bytesAt (m.device.physical flag.remote outer) m.device.arch.rowBytes)) := by
  cases flag <;> first | rfl | (cases ht; done) | (cases k <;> cases hk)

theorem carry_store {k : Bank} (hk : flag.remote = k.space) (ht : ¬ flag.isToLocal)
    (inner outer : Nat) (m : Machine) :
    carry flag inner outer m =
      { m with memory :=
          m.memory.patch (m.device.physical flag.remote outer) (m.device.localBytes inner) } := by
  cases flag <;> first | rfl | exact absurd rfl ht | (cases k <;> cases hk)

theorem carry_spares (flag : MoveFlag) (inner outer : Nat) (m : Machine) :
    (carry flag inner outer m).device.arch = m.device.arch ∧
      (carry flag inner outer m).device.registers = m.device.registers ∧
      (carry flag inner outer m).memory.next = m.memory.next ∧
      (carry flag inner outer m).memory.extents = m.memory.extents := by
  cases flag <;> first
    | exact ⟨rfl, rfl, rfl, rfl⟩
    | exact ⟨rfl, rfl, rfl, Memory.extents_patch ..⟩

theorem physical_congr {d e : Device} (ha : e.arch = d.arch) (hr : e.registers = d.registers)
    (space : Space) (row : Nat) : e.physical space row = d.physical space row := by
  rw [Device.physical, Device.physical, Device.register, Device.register, ha, hr]

theorem admits_carry {flag' : MoveFlag} {inner outer inner' outer' : Nat} :
    (carry flag' inner' outer' m).Admits flag inner outer ↔ m.Admits flag inner outer := by
  obtain ⟨ha, hr, _, he⟩ := carry_spares flag' inner' outer' m
  constructor
  · rintro ⟨hl, hd, hm⟩
    rw [ha] at hl hd
    rw [ha, he, physical_congr ha hr] at hm
    exact ⟨hl, hd, hm⟩
  · rintro ⟨hl, hd, hm⟩
    refine ⟨by rwa [ha], by rwa [ha], ?_⟩
    rwa [ha, he, physical_congr ha hr]

theorem refusal_carry {flag' : MoveFlag} {inner outer inner' outer' : Nat} :
    (carry flag' inner' outer' m).refusal flag inner outer = m.refusal flag inner outer := by
  obtain ⟨ha, hr, _, _⟩ := carry_spares flag' inner' outer' m
  rw [refusal, refusal, ha, physical_congr ha hr]

section Row

variable (hs : m.Sound arch) (hm : m.memory.Apart) (hb : 0 < arch.rowBytes)
include hs hm hb

theorem moveDramRow_admitted {k : Bank} (hk : flag.remote = k.space)
    (h : m.Admits flag localRow.toNat row.toNat) :
    (moveDramRow flag localRow row).run m = (.ok (), carry flag localRow.toNat row.toNat m) := by
  obtain rfl : m.device.arch = arch := hs.built
  obtain ⟨hl, hr, hmapped⟩ := h
  obtain ⟨e, he, hc⟩ := hmapped k hk
  have hlt : m.device.physical flag.remote row.toNat < 2 ^ 64 := by
    have hstop := (hm.below e he).1
    have hnext := m.memory.next.toNat_lt
    have hend := hc.2
    omega
  have hn := UInt64.toNat_ofNat_of_lt' hlt
  have ha : rowAddress? m.device flag.remote row =
      some (.ofNat (m.device.physical flag.remote row.toNat)) :=
    Exact.ofNat?_eq_some_iff.mpr hn.symm
  rw [moveDramRow_run, if_pos (UInt64.lt_iff_toNat_lt.mpr hr), ha]
  rw [← hn] at hc
  simp only
  by_cases ht : flag.isToLocal
  · rw [if_pos ht, Memory.readAt?_of_contains he hc, hn, carry_load hk ht]
    exact setLocalRow_run ..
  · have hscalars : m.device.arch.dataType.toBytes (m.device.localRow localRow) =
        .ok (m.device.localBytes localRow.toNat) := hs.toBytes_localRow_eq localRow
    have hlength : (m.device.localBytes localRow.toNat).length = m.device.arch.rowBytes := by
      rw [DataType.length_toBytes hscalars, hs.length_localRow (UInt64.lt_iff_toNat_lt.mpr hl),
        Architecture.rowBytes]
    have hsome := (m.memory.isSome_readAt?_iff _ _).mpr ⟨e, he, hc⟩
    rw [Memory.readAt?, Option.isSome_map] at hsome
    rw [if_neg ht, hscalars]
    simp only
    rw [storeRow_run, hlength, if_pos hsome, hm.writeAt_eq_patch (hlength ▸ hb), hn,
      carry_store hk ht]

theorem moveRow_admitted (h : m.Admits flag localRow.toNat row.toNat) :
    (moveRow flag localRow row).run m = (.ok (), carry flag localRow.toNat row.toNat m) := by
  rw [moveRow_run, if_pos (UInt64.lt_iff_toNat_lt.mpr h.scratchpad)]
  cases hf : flag.remote with
  | dram0 => exact moveDramRow_admitted hs hm hb (k := .dram0) hf h
  | dram1 => exact moveDramRow_admitted hs hm hb (k := .dram1) hf h
  | accumulator =>
    have hr : row < m.device.arch.accumulatorDepth := by
      have hr := h.remote
      rw [hf] at hr
      exact UInt64.lt_iff_toNat_lt.mpr hr
    simp only
    rw [moveAccumulatorRow_run, if_pos hr]
    cases flag with
    | accumulatorToLocal => exact setLocalRow_run ..
    | localToAccumulator | localToAccumulatorAccumulate => exact setAccumulatorRow_run ..
    | dram0ToLocal | localToDram0 | dram1ToLocal | localToDram1 => cases hf
  | scratchpad => cases flag <;> cases hf

omit hb hm in
theorem moveDramRow_refused (hl : localRow < m.device.arch.localDepth)
    (h : ¬ m.Admits flag localRow.toNat row.toNat) :
    (moveDramRow flag localRow row).run m =
      (.error (if (m.device.arch.depth flag.remote).toNat ≤ row.toNat then .dramRow flag.remote row
        else if 2 ^ 64 ≤ m.device.physical flag.remote row.toNat then .addressOverflow
        else .unmapped (.ofNat (m.device.physical flag.remote row.toNat))), m) := by
  obtain rfl : m.device.arch = arch := hs.built
  rw [moveDramRow_run]
  by_cases hr : row < m.device.arch.depth flag.remote
  · have hlt := UInt64.lt_iff_toNat_lt.mp hr
    rw [if_pos hr, if_neg (Nat.not_le.mpr hlt)]
    cases ha : rowAddress? m.device flag.remote row with
    | none =>
      have hover : 2 ^ 64 ≤ m.device.physical flag.remote row.toNat :=
        Exact.ofNat?_eq_none_iff.mp ha
      rw [if_pos hover]
    | some address =>
      have hn : m.device.physical flag.remote row.toNat = address.toNat :=
        Exact.ofNat?_eq_some_iff.mp ha
      have hnone : m.memory.readAt? address m.device.arch.rowBytes = none := by
        refine Option.not_isSome_iff_eq_none.mp fun hsome => h ⟨?_, hlt, fun _ _ => ?_⟩
        · exact UInt64.lt_iff_toNat_lt.mp hl
        · rw [hn]
          exact (m.memory.isSome_readAt?_iff _ _).mp hsome
      rw [hn, if_neg (Nat.not_le.mpr address.toNat_lt), UInt64.ofNat_toNat]
      simp only
      by_cases ht : flag.isToLocal
      · rw [if_pos ht, hnone]
      · obtain ⟨bytes, hbytes, hlength⟩ := hs.toBytes_localRow hl
        rw [if_neg ht, hbytes]
        simp only
        rw [Memory.readAt?, Option.map_eq_none_iff] at hnone
        rw [storeRow_run, hlength, hnone]
        rfl
  · rw [if_neg hr, if_pos (Nat.not_lt.mp fun hlt => hr (UInt64.lt_iff_toNat_lt.mpr hlt))]

omit hb hm in
theorem moveRow_refused (h : ¬ m.Admits flag localRow.toNat row.toNat) :
    (moveRow flag localRow row).run m =
      (.error (m.refusal flag localRow.toNat row.toNat), m) := by
  have hsmall : ¬ (2 ^ 64 ≤ localRow.toNat ∨ 2 ^ 64 ≤ row.toNat) := by
    have hl := localRow.toNat_lt
    have hr := row.toNat_lt
    omega
  rw [moveRow_run, refusal, if_neg hsmall, UInt64.ofNat_toNat, UInt64.ofNat_toNat]
  by_cases hl : localRow < m.device.arch.localDepth
  · rw [if_pos hl, if_neg (Nat.not_le.mpr (UInt64.lt_iff_toNat_lt.mp hl))]
    cases hf : flag.remote with
    | dram0 | dram1 =>
      have hrun := moveDramRow_refused hs hl h
      rw [hf] at hrun
      exact hrun
    | accumulator =>
      have hr : ¬ row < m.device.arch.accumulatorDepth := by
        intro hr
        refine h ⟨UInt64.lt_iff_toNat_lt.mp hl, ?_, fun k hk => ?_⟩
        · rw [hf]
          exact UInt64.lt_iff_toNat_lt.mp hr
        · rw [hf] at hk
          cases k <;> cases hk
      simp only
      rw [moveAccumulatorRow_run, if_neg hr]
    | scratchpad => cases flag <;> cases hf
  · rw [if_neg hl, if_pos (Nat.not_lt.mp fun hlt => hl (UInt64.lt_iff_toNat_lt.mpr hlt))]

end Row

/-- What is to be known of a machine whose rows are numbered without a loss. -/
structure Numbered (arch : Architecture) (m : Machine) : Prop where
  sound : m.Sound arch
  apart : m.memory.Apart
  width : arch.arraySize ≠ 0
  cells : max (Device.cells arch arch.localDepth) (Device.cells arch arch.accumulatorDepth) <
    scalarLimit

section Numbered

variable {inner outer : Nat}

theorem Numbered.width_pos (h : Numbered arch m) : 0 < arch.arraySize.toNat :=
  Nat.pos_of_ne_zero fun hz => h.width (UInt64.toNat_inj.mp hz)

theorem Numbered.rowBytes_pos (h : Numbered arch m) : 0 < arch.rowBytes :=
  Nat.mul_pos h.width_pos (scalarBytes_pos _)

theorem Numbered.depth_lt (h : Numbered arch m) {depth : UInt64}
    (hc : Device.cells arch depth < scalarLimit) : depth.toNat < 2 ^ 63 := by
  have hle := Nat.le_mul_of_pos_right depth.toNat h.width_pos
  have hlimit : scalarLimit < 2 ^ 63 := by decide
  exact Nat.lt_trans (Nat.lt_of_le_of_lt hle hc) hlimit

theorem Numbered.bank_lt (h : Numbered arch m) {k : Bank} (hk : flag.remote = k.space)
    (ha : m.Admits flag inner outer) : outer < 2 ^ 63 := by
  obtain ⟨e, he, hcontains⟩ := ha.mapped k hk
  have hstop := (h.apart.below e he).1
  have hnext := m.memory.next.toNat_lt
  have hend := hcontains.2
  have hbytes : 2 ≤ m.device.arch.rowBytes := by
    rw [h.sound.built]
    exact Nat.le_trans (two_le_scalarBytes _) (Nat.le_mul_of_pos_left _ h.width_pos)
  have hrow := Nat.mul_le_mul_left outer hbytes
  rw [Device.physical] at hend
  omega

theorem Numbered.lt (h : Numbered arch m) (ha : m.Admits flag inner outer) :
    inner < 2 ^ 63 ∧ outer < 2 ^ 63 := by
  have hscratchpad := h.depth_lt (Nat.lt_of_le_of_lt (Nat.le_max_left ..) h.cells)
  have haccumulator := h.depth_lt (Nat.lt_of_le_of_lt (Nat.le_max_right ..) h.cells)
  rw [← h.sound.built] at hscratchpad haccumulator
  refine ⟨Nat.lt_trans ha.scratchpad hscratchpad, ?_⟩
  cases hf : flag.remote with
  | dram0 => exact h.bank_lt (k := .dram0) hf ha
  | dram1 => exact h.bank_lt (k := .dram1) hf ha
  | accumulator =>
    have hr := ha.remote
    rw [hf] at hr
    exact Nat.lt_trans hr haccumulator
  | scratchpad => cases flag <;> cases hf

end Numbered

/-- Behind a row with a small number the next one is computed without a loss. -/
theorem strided?_eq_rowAt {a : StridedAddress} (hs : a.stride < 64) {i : Nat}
    (hprev : i = 0 ∨ rowAt a (i - 1) < 2 ^ 63) (hi : i < 2 ^ 64) :
    strided? a (.ofNat i) = Exact.ofNat? (rowAt a i) := by
  have hstride : a.stride.toNat < 64 := UInt64.lt_iff_toNat_lt.mp hs
  have hfit : i * 2 ^ a.stride.toNat < 2 ^ 64 := by
    have hstep : 2 ^ a.stride.toNat < 2 ^ 64 := Nat.pow_lt_pow_right (by decide) hstride
    rcases hprev with rfl | hprev
    · rw [Nat.zero_mul]
      exact Nat.two_pow_pos 64
    · cases i with
      | zero =>
        rw [Nat.zero_mul]
        exact Nat.two_pow_pos 64
      | succ j =>
        rw [rowAt, Nat.add_sub_cancel] at hprev
        rw [Nat.succ_mul]
        rcases Nat.eq_zero_or_pos j with rfl | hj
        · rwa [Nat.zero_mul, Nat.zero_add]
        · -- a second step is no longer than all the steps before it
          have hle := Nat.le_mul_of_pos_left (2 ^ a.stride.toNat) hj
          omega
  have hshift : (UInt64.ofNat i <<< a.stride).toNat = i * 2 ^ a.stride.toNat := by
    rw [UInt64.toNat_shiftLeft, UInt64.toNat_ofNat_of_lt' hi, Nat.mod_eq_of_lt hstride,
      Nat.shiftLeft_eq, Nat.mod_eq_of_lt hfit]
  rw [strided?, if_pos hs, Exact.add?, hshift, rowAt]

theorem moveRows_overflow {scratchpad address : StridedAddress} {i : Nat} (rest : Nat) (m : Machine)
    (h : strided? scratchpad (.ofNat i) = none ∨ strided? address (.ofNat i) = none) :
    (moveRows flag scratchpad address i (rest + 1)).run m = (.error .addressOverflow, m) := by
  rw [moveRows]
  cases hs : strided? scratchpad (.ofNat i) with
  | none => rfl
  | some localRow =>
    rw [h.resolve_left fun hnone => Option.some_ne_none _ (hs.symm.trans hnone)]
    rfl

theorem Numbered.moveRow_run (h : Numbered arch m) {inner outer : Nat}
    (ha : m.Admits flag inner outer) :
    (moveRow flag (.ofNat inner) (.ofNat outer)).run m = (.ok (), carry flag inner outer m) := by
  obtain ⟨hinner, houter⟩ := h.lt ha
  have hlimit : 2 ^ 63 < UInt64.size := by decide
  have hl := UInt64.toNat_ofNat_of_lt' (Nat.lt_trans hinner hlimit)
  have hr := UInt64.toNat_ofNat_of_lt' (Nat.lt_trans houter hlimit)
  rw [← hl, ← hr] at ha
  have hrun := moveRow_admitted h.sound h.apart h.rowBytes_pos ha
  rwa [hl, hr] at hrun

theorem Numbered.carry (h : Numbered arch m) {inner outer : Nat} (ha : m.Admits flag inner outer) :
    Numbered arch (carry flag inner outer m) := by
  have hsound : Sound arch ((moveRow flag (.ofNat inner) (.ofNat outer)).run m).2 :=
    confined_moveRow.keeps.state h.sound
  rw [h.moveRow_run ha] at hsound
  obtain ⟨_, _, hnext, hextents⟩ := carry_spares flag inner outer m
  exact ⟨hsound, h.apart.congr hextents hnext, h.width, h.cells⟩

theorem Numbered.moveRow_refused (h : Numbered arch m) {inner outer : Nat} (hi : inner < 2 ^ 64)
    (ho : outer < 2 ^ 64) (hnot : ¬ m.Admits flag inner outer) :
    (moveRow flag (.ofNat inner) (.ofNat outer)).run m =
      (.error (m.refusal flag inner outer), m) := by
  have hl := UInt64.toNat_ofNat_of_lt' hi
  have hr := UInt64.toNat_ofNat_of_lt' ho
  rw [← hl, ← hr] at hnot
  have hrun := Machine.moveRow_refused h.sound hnot
  rwa [hl, hr] at hrun

section Rows

variable {scratchpad address : StridedAddress} (h : Numbered arch m) {n : Nat}
  (ha : ∀ i < n, m.Admits flag (rowAt scratchpad i) (rowAt address i))
include h ha

theorem carryRows_spares :
    Numbered arch (carryRows flag scratchpad address n m) ∧
      (∀ inner outer, (carryRows flag scratchpad address n m).Admits flag inner outer ↔
        m.Admits flag inner outer) ∧
      ∀ inner outer, (carryRows flag scratchpad address n m).refusal flag inner outer =
        m.refusal flag inner outer := by
  induction n with
  | zero => exact ⟨h, fun _ _ => Iff.rfl, fun _ _ => rfl⟩
  | succ n ih =>
    obtain ⟨hnumbered, hadmits, hrefusal⟩ := ih fun i hi => ha i (Nat.lt_succ_of_lt hi)
    exact ⟨hnumbered.carry ((hadmits _ _).mpr (ha n (Nat.lt_succ_self n))),
      fun _ _ => admits_carry.trans (hadmits _ _), fun _ _ => refusal_carry.trans (hrefusal _ _)⟩

theorem strided?_next (hs : scratchpad.stride < 64) (hs' : address.stride < 64) (hn : n < 2 ^ 64) :
    strided? scratchpad (.ofNat n) = Exact.ofNat? (rowAt scratchpad n) ∧
      strided? address (.ofNat n) = Exact.ofNat? (rowAt address n) := by
  rcases Nat.eq_zero_or_pos n with rfl | hpos
  · exact ⟨strided?_eq_rowAt hs (.inl rfl) hn, strided?_eq_rowAt hs' (.inl rfl) hn⟩
  · obtain ⟨hinner, houter⟩ := h.lt (ha (n - 1) (Nat.sub_lt hpos Nat.one_pos))
    exact ⟨strided?_eq_rowAt hs (.inr hinner) hn, strided?_eq_rowAt hs' (.inr houter) hn⟩

theorem moveRows_refused (hs : scratchpad.stride < 64) (hs' : address.stride < 64)
    (hn : n < 2 ^ 64) (hnot : ¬ m.Admits flag (rowAt scratchpad n) (rowAt address n)) (rest : Nat) :
    (moveRows flag scratchpad address n (rest + 1)).run (carryRows flag scratchpad address n m) =
      (.error (m.refusal flag (rowAt scratchpad n) (rowAt address n)),
        carryRows flag scratchpad address n m) := by
  obtain ⟨hnumbered, hadmits, hrefusal⟩ := carryRows_spares h ha
  obtain ⟨hinner, houter⟩ := strided?_next h ha hs hs' hn
  by_cases hbig : 2 ^ 64 ≤ rowAt scratchpad n ∨ 2 ^ 64 ≤ rowAt address n
  · rw [moveRows_overflow, refusal, if_pos hbig]
    rw [hinner, houter, Exact.ofNat?_eq_none_iff, Exact.ofNat?_eq_none_iff]
    exact hbig
  · obtain ⟨hlt, hlt'⟩ := not_or.mp hbig
    have hrefused := hnumbered.moveRow_refused (Nat.not_le.mp hlt) (Nat.not_le.mp hlt')
      (mt (hadmits _ _).mp hnot)
    rw [hrefusal] at hrefused
    rw [moveRows, hinner.trans (if_pos (Nat.not_le.mp hlt)),
      houter.trans (if_pos (Nat.not_le.mp hlt'))]
    change (moveRow flag _ _ >>= fun _ => _).run _ = _
    rw [Action.bind_run, hrefused]

/-- Rows that are there are moved one after the other. -/
theorem moveRows_admitted (hs : scratchpad.stride < 64) (hs' : address.stride < 64)
    (hn : n ≤ 2 ^ 64) (rest : Nat) :
    (moveRows flag scratchpad address 0 (n + rest)).run m =
      (moveRows flag scratchpad address n rest).run
        (carryRows flag scratchpad address n m) := by
  induction n generalizing rest with
  | zero => rw [Nat.zero_add]; rfl
  | succ n ih =>
    have hbefore : ∀ i < n, m.Admits flag (rowAt scratchpad i) (rowAt address i) :=
      fun i hi => ha i (Nat.lt_succ_of_lt hi)
    have hadmitted := ha n (Nat.lt_succ_self n)
    obtain ⟨hnumbered, hadmits, _⟩ := carryRows_spares h hbefore
    obtain ⟨hinner, houter⟩ := strided?_next h hbefore hs hs' hn
    obtain ⟨hlt, hlt'⟩ := h.lt hadmitted
    have hlimit : 2 ^ 63 < 2 ^ 64 := by decide
    have hmoved := hnumbered.moveRow_run ((hadmits _ _).mpr hadmitted)
    rw [Nat.add_right_comm, Nat.add_assoc, ih hbefore (Nat.le_of_succ_le hn), moveRows,
      hinner.trans (if_pos (Nat.lt_trans hlt hlimit)),
      houter.trans (if_pos (Nat.lt_trans hlt' hlimit))]
    change (moveRow flag _ _ >>= fun _ => _).run _ = _
    rw [Action.bind_run, hmoved]
    rfl

end Rows

/-- What a move does, on every unit that there can be. A stride that is as wide as an address is an
overflow from the first row on. With other strides the rows are the exact ones: they are moved in
their order up to the first one that is not there, and this one is the fault. -/
theorem rows_exact {d : Device} (hv : arch.validate = .ok ())
    (hd : Device.ofArchitecture arch = .ok d) (hs : m.Sound arch) (hm : m.memory.Apart)
    (flag : MoveFlag) (scratchpad address : StridedAddress) (size : UInt64) :
    (64 ≤ scratchpad.stride ∨ 64 ≤ address.stride →
      (execute (.dataMove flag scratchpad address size)).run m = (.error .addressOverflow, m)) ∧
    (scratchpad.stride < 64 → address.stride < 64 →
      ((∀ i ≤ size.toNat, m.Admits flag (rowAt scratchpad i) (rowAt address i)) →
        (execute (.dataMove flag scratchpad address size)).run m =
          (.ok (), carryRows flag scratchpad address (size.toNat + 1) m)) ∧
      ∀ n ≤ size.toNat, (∀ i < n, m.Admits flag (rowAt scratchpad i) (rowAt address i)) →
        ¬ m.Admits flag (rowAt scratchpad n) (rowAt address n) →
        (execute (.dataMove flag scratchpad address size)).run m =
          (.error (m.refusal flag (rowAt scratchpad n) (rowAt address n)),
            carryRows flag scratchpad address n m)) := by
  have hcells : max (Device.cells arch arch.localDepth)
      (Device.cells arch arch.accumulatorDepth) < scalarLimit := by
    rw [Device.ofArchitecture] at hd
    exact (ite_eq_iff.mp hd).elim And.left fun h => nomatch h.2
  have h : Numbered arch m := ⟨hs, hm, Architecture.arraySize_ne_zero hv, hcells⟩
  have hsize := size.toNat_lt
  rw [execute]
  refine ⟨fun hwide => moveRows_overflow _ _ ?_,
    fun hl hr => ⟨fun ha => ?_, fun n hn ha hnot => ?_⟩⟩
  · exact hwide.imp (fun h => if_neg (UInt64.not_lt.mpr h)) fun h => if_neg (UInt64.not_lt.mpr h)
  · exact moveRows_admitted h (fun i hi => ha i (Nat.le_of_lt_succ hi)) hl hr hsize 0
  · have hn' := Nat.lt_of_le_of_lt hn hsize
    obtain ⟨rest, hrest⟩ := Nat.exists_eq_add_of_le hn
    rw [hrest, Nat.add_assoc, moveRows_admitted h ha hl hr (Nat.le_of_lt hn')]
    exact moveRows_refused h ha hl hr hn' hnot rest

def threeRows : Machine :=
  ⟨.fresh tinyArch, ⟨[("a", ⟨0, ⟨#[1, 0, 2, 0, 3, 0]⟩⟩)], 65536⟩⟩

theorem threeRows_admits {inner outer : Nat} (hi : inner < 4) (ho : outer < 3) :
    threeRows.Admits .dram0ToLocal inner outer := by
  have hp : threeRows.device.physical .dram0 outer = outer * 2 := Nat.zero_add _
  refine ⟨hi, Nat.lt_trans ho (by decide), fun _ _ => ⟨⟨"a", 0, 6⟩, by decide, Nat.zero_le _, ?_⟩⟩
  change threeRows.device.physical .dram0 outer + 2 ≤ 0 + 6
  omega

/-- The third row would come behind the last one of the scratchpad. -/
theorem rows_exact_threeRows :
    (execute (.dataMove .dram0ToLocal ⟨2, 0⟩ ⟨0, 1⟩ 2)).run threeRows =
      (.error (.localRow 4), carryRows .dram0ToLocal ⟨2, 0⟩ ⟨0, 1⟩ 2 threeRows) := by
  have hs : threeRows.Sound tinyArch := Device.sound_fresh tinyArch
  have hm : threeRows.memory.Apart := ⟨by decide, by decide, List.pairwise_singleton ..⟩
  have ha : ∀ i < 2, threeRows.Admits .dram0ToLocal (rowAt ⟨2, 0⟩ i) (rowAt ⟨0, 1⟩ i) := by
    refine fun i hi => threeRows_admits ?_ ?_ <;> rw [rowAt]
    · change 2 + i * 1 < 4
      omega
    · change 0 + i * 2 < 3
      omega
  have hnot : ¬ threeRows.Admits .dram0ToLocal (rowAt ⟨2, 0⟩ 2) (rowAt ⟨0, 1⟩ 2) :=
    fun h => absurd h.scratchpad (by decide)
  exact ((rows_exact (by decide) rfl hs hm .dram0ToLocal ⟨2, 0⟩ ⟨0, 1⟩ 2).2
    (by decide) (by decide)).2 2 (by decide) ha hnot

def wideArch : Architecture :=
  { tinyArch with stride0Depth := 128 }

/-- A row that is there is not moved where the stride is as wide as an address. -/
theorem row_overflows :
    wideArch.validate = .ok () ∧
      Tcu.decode (.ofDepths wideArch) [1, 1, 0, 0, 0, 0, 32] =
        .ok (.dataMove .dram0ToLocal ⟨1, 64⟩ ⟨0, 0⟩ 0) ∧
      let m := { threeRows with device := .fresh wideArch }
      m.Admits .dram0ToLocal (rowAt ⟨1, 64⟩ 0) (rowAt ⟨0, 0⟩ 0) ∧
        (execute (.dataMove .dram0ToLocal ⟨1, 64⟩ ⟨0, 0⟩ 0)).run m = (.error .addressOverflow, m) :=
  ⟨by decide, by decide,
    ⟨by decide, by decide, fun _ _ => ⟨⟨"a", 0, 6⟩, by decide, by decide⟩⟩, rfl⟩

end Machine

end TensorUnit.Sim
