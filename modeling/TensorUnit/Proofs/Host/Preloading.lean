import TensorUnit.Proofs.Host.Loading
import TensorUnit.Proofs.Host.Unseen

namespace TensorUnit

namespace Sim

open Tcu (Instruction MoveFlag StridedAddress)

theorem Machine.strided?_unit {a : UInt64} {i : Nat} (h : a.toNat + i < 2 ^ 64) :
    strided? (.unit a) (.ofNat i) = some (.ofNat (a.toNat + i)) := by
  have hi : (UInt64.ofNat i).toNat = i := UInt64.toNat_ofNat_of_lt' (by change i < 2 ^ 64; omega)
  have hsum : (UInt64.ofNat (a.toNat + i)).toNat = a.toNat + i := UInt64.toNat_ofNat_of_lt' h
  have hadd : Exact.add? a (.ofNat i) = some (.ofNat (a.toNat + i)) :=
    Exact.add?_eq_some_iff.mpr (by rw [hi, hsum])
  simpa [strided?, StridedAddress.unit] using hadd

namespace Banks

variable {b : Banks} {m t : Machine} {base size : UInt64}

theorem Agree.localRow (h : b.Agree m t) (ha : m.device.arch = t.device.arch) (row : UInt64) :
    m.device.localRow row = t.device.localRow row := by
  rw [Device.localRow, Device.localRow, Device.width, Device.width, h.scratchpad, ha]

theorem contents_putRow_of_ne (hf : b.Fit) {k j : Bank} (hk : j ≠ k) (m : Machine) (row : UInt64)
    (bytes : List UInt8) : b.contents (b.putRow m k row bytes) j = b.contents m j := by
  have hbeside : Memory.Beside (b.name k) m.memory (b.putRow m k row bytes).memory :=
    Memory.beside_write m.memory (b.name k) _ bytes
  exact hbeside.bytes (hf.name_ne hk)

theorem Hold.depth_lt (hf : b.Fit) (h : b.Hold m) (k : Bank) :
    (b.arch.depth k.space).toNat < 2 ^ 63 := by
  have hsize := h.size_lt_byteLimit hf
  change b.size < 2 ^ 63 at hsize
  have hle := Nat.le_mul_of_pos_right (b.arch.depth k.space).toNat hf.rowBytes
  exact Nat.lt_of_le_of_lt (Nat.le_trans hle (hf.rows k)) hsize

theorem Found.copies (hf : b.Fit) (h : b.Found m) (hne : size ≠ 0)
    (h1 : base.toNat + size.toNat ≤ b.arch.dram1Depth.toNat)
    (h2 : base.toNat + size.toNat ≤ b.arch.localDepth.toNat) :
    ∃ t, (Machine.execute (.move .dram1ToLocal base base (size - 1))).run m = (.ok (), t) ∧
      b.Hold t ∧ t.device.registers = m.device.registers ∧
      ∀ row : UInt64, base.toNat ≤ row.toNat → row.toNat < base.toNat + size.toNat →
        t.device.localRow row = b.arch.dataType.ofBytes (b.row m .dram1 row) := by
  have hcount := toNat_sub_one hne
  have hlt := size.toNat_lt
  have hmax : b.arch.dram1Depth.toNat < 2 ^ 63 := h.hold.depth_lt hf .dram1
  have hrow : ∀ j < size.toNat, (UInt64.ofNat (base.toNat + j)).toNat = base.toNat + j :=
    fun j hj => UInt64.toNat_ofNat_of_lt' (by change _ < 2 ^ 64; omega)
  have hrange : b.InRange .dram1ToLocal (.unit base) (.unit base) ((size - 1).toNat + 1) := by
    intro j hj
    have hj' := hrow j (by omega)
    have hs := Machine.strided?_unit (a := base) (i := j) (by omega)
    refine ⟨⟨_, UInt64.lt_iff_toNat_lt.mpr ?_, hs⟩, _, UInt64.lt_iff_toNat_lt.mpr ?_, hs⟩
    · omega
    · change _ < b.arch.dram1Depth.toNat
      omega
  obtain ⟨t, hrun, hloaded⟩ := h.loads hf (k := .dram1) rfl rfl hrange
  refine ⟨t, hrun, ?_, by rw [hloaded.device], fun row hlo hhi => ?_⟩
  · have hkept := Machine.kept_execute (.move .dram1ToLocal base base (size - 1)) m
    have hstate : ((Machine.execute (.move .dram1ToLocal base base (size - 1))).run m).2 = t :=
      congrArg Prod.snd hrun
    exact h.hold.of_kept (hstate ▸ hkept)
  · obtain ⟨j, hj⟩ := Nat.exists_eq_add_of_le hlo
    have hs : Machine.strided? (.unit base) (.ofNat j) = some row := by
      rw [Machine.strided?_unit (by omega), ← hj, UInt64.ofNat_toNat]
    refine hloaded.moved j (by omega) row row hs hs fun i hi hic he => ?_
    have hi' := Machine.toNat_strided?_unit (by omega) he
    omega

end Banks

end Sim

namespace Host

open TensorUnit.Action (Triple Keeps)
open Remote Sim
open Tcu (Instruction)

section Rows

variable {arch : Architecture} {base size : UInt64}

theorem rows_le_of_checkRows (hmax : arch.dram1Depth.toNat < 2 ^ 63)
    (h1 : arch.checkRows .dram1 base size = .ok ())
    (h2 : arch.checkRows .scratchpad base size = .ok ()) :
    base.toNat + size.toNat ≤ arch.dram1Depth.toNat ∧
      base.toNat + size.toNat ≤ arch.localDepth.toNat := by
  have hend1 := Architecture.checkRows_eq_ok_iff.mp h1
  have hend2 := Architecture.checkRows_eq_ok_iff.mp h2
  change _ ≤ arch.dram1Depth.toNat ∨ arch.dram1Depth.toNat = _ at hend1
  change _ ≤ arch.localDepth.toNat ∨ arch.localDepth.toNat = _ at hend2
  omega

end Rows

namespace Driving

variable {h h' : Driving (Switch Simulator)} {base size : UInt64}

theorem executeProgram_of_loadConsts (hne : size ≠ 0)
    (hrun : (loadConsts ⟨base⟩ size).run h = (.ok (), h')) :
    h.driver.arch.checkRows .dram1 base size = .ok () ∧
      h.driver.arch.checkRows .scratchpad base size = .ok () ∧
      ∃ polls, (executeProgram [.move .dram1ToLocal base base (size - 1)]).run h =
        (.ok polls, h') := by
  rw [loadConsts, if_neg hne] at hrun
  obtain ⟨_, _, hview, hrun⟩ := Action.exists_of_bind_run hrun
  cases hview
  obtain ⟨_, _, hdram1, hrun⟩ := Action.exists_of_bind_run hrun
  obtain ⟨h1, rfl⟩ := ofSpec_run_eq_ok hdram1
  obtain ⟨_, _, hlocal, hrun⟩ := Action.exists_of_bind_run hrun
  obtain ⟨h2, rfl⟩ := ofSpec_run_eq_ok hlocal
  obtain ⟨polls, _, hprogram, hrun⟩ := Action.exists_of_bind_run hrun
  cases hrun
  exact ⟨h1, h2, polls, hprogram⟩

/-- A unit that copies rows with success finds DRAM0, where the stamp is stored behind them. -/
theorem Held.finds_of_loadConsts (hh : h.Held) (hq : h.device.queue = []) (hne : size ≠ 0)
    (hrun : (loadConsts ⟨base⟩ size).run h = (.ok (), h')) :
    h.driver.banks.Finds h.device .dram0 := by
  obtain ⟨_, _, polls, hprogram⟩ := executeProgram_of_loadConsts hne hrun
  refine hh.finds hq (fun instr hi => ?_) hprogram
  rw [List.mem_singleton.mp hi]
  exact fetches_move (k := .dram1) rfl rfl fun _ _ _ => trivial

theorem executeAll_probe {d : Driver} (hd : d.Sound) {m t : Machine} (hold : d.banks.Hold m)
    (hl : d.banks.Finds m.device .dram0)
    (hrun : (Machine.executeAll d.probe.instructions).run m = (.ok (), t)) {row : UInt64}
    (hrow : row < d.arch.localDepth - 1) :
    d.banks.Hold t ∧ t.device.localRow row = m.device.localRow row := by
  obtain ⟨_, u, hfetch, hrun⟩ := Action.exists_of_bind_run hrun
  obtain ⟨_, v, hcarry, hrun⟩ := Action.exists_of_bind_run hrun
  cases hrun
  have hlast : Fetches (fun row => d.arch.localDepth - 1 ≤ row) d.fetch := by
    refine fetches_move (k := .dram0) rfl rfl fun row hlo _ => ?_
    rw [hd.scratchpad] at hlo
    exact UInt64.le_iff_toNat_le.mpr hlo
  have hu : ((Machine.execute d.fetch).run m).2 = u := congrArg Prod.snd hfetch
  have hfetched : d.banks.Refilled (fun row => d.arch.localDepth - 1 ≤ row) m u :=
    hu ▸ hold.refilled_of_fetches hlast
  have holdu := hold.of_kept hfetched.kept
  have ht : ((Machine.execute d.carry).run u).2 = t := congrArg Prod.snd hcarry
  have hcarried : d.banks.Refilled (fun _ => False) u t :=
    ht ▸ holdu.refilled_store hd.fit (hl.congr hfetched.registers)
  refine ⟨holdu.of_kept hcarried.kept, ?_⟩
  rw [hcarried.scratchpad row id, hfetched.scratchpad row (UInt64.not_le.mpr hrow)]

theorem contents_armed {d : Driver} (hd : d.Sound) (m : Machine) :
    d.banks.contents (d.armed m) .dram1 = d.banks.contents m .dram1 := by
  have hne : Bank.dram1 ≠ Bank.dram0 := nofun
  rw [Driver.armed, Banks.contents_putRow_of_ne hd.fit hne, Banks.contents_putRow_of_ne hd.fit hne]

theorem Rested.copies (hr : h.Rested) (hold : h.driver.banks.Hold h'.machine) (hne : size ≠ 0)
    (hrun : (loadConsts ⟨base⟩ size).run h = (.ok (), h')) {row : UInt64}
    (hlo : base.toNat ≤ row.toNat) (hhi : row.toNat < base.toNat + size.toNat)
    (hrow : row < h.driver.arch.localDepth - 1) :
    h'.device.localRow row =
      h.driver.arch.dataType.ofBytes (h.driver.banks.row h.machine .dram1 row) := by
  obtain ⟨hd, _⟩ := hr.held
  obtain ⟨h1, h2, polls, hprogram⟩ := executeProgram_of_loadConsts hne hrun
  have hle := rows_le_of_checkRows (hr.hold.depth_lt hd.fit .dram1) h1 h2
  have htame : h.driver.Tame [.move .dram1ToLocal base base (size - 1)] := by
    intro instr hi
    rw [List.mem_singleton.mp hi]
    exact ⟨id, id⟩
  obtain ⟨t, hall, hagree⟩ := hr.in_order htame hprogram
  have hfound : h.driver.banks.Found (h.driver.armed h.machine) :=
    ⟨Driver.hold_armed hr.hold, hr.located⟩
  obtain ⟨u, hu, holdu, hregisters, hrows⟩ := hfound.copies hd.fit hne hle.1 hle.2
  obtain ⟨_, v, hv, hall⟩ := Action.exists_of_bind_run hall
  cases hu.symm.trans hv
  have hl : h.driver.banks.Finds (h.driver.armed h.machine).device .dram0 := hr.located .dram0
  obtain ⟨holdt, hprobe⟩ := executeAll_probe hd holdu (hl.congr hregisters) hall hrow
  have harmed : h.driver.banks.row (h.driver.armed h.machine) .dram1 row =
      h.driver.banks.row h.machine .dram1 row := by
    rw [Banks.row, contents_armed hd, Banks.row]
  calc h'.device.localRow row = t.device.localRow row :=
        hagree.localRow (hold.arch.trans holdt.arch.symm) row
    _ = u.device.localRow row := hprobe
    _ = _ := by rw [hrows row hlo hhi, harmed]; rfl

end Driving

/-- Rows that are copied and waited for with success stand in the scratchpad, if the unit finds
DRAM1; all else in the scratchpad but the last row, through which the probe is carried, and all of
DRAM1 and of the accumulator is as before, whatever the unit takes for DRAM1. -/
theorem loadConsts_copies {h h' : Driving (Switch Simulator)} (hr : Reached (fun _ _ => True) h)
    (hopen : h.driver.closed = false) (hq : h.device.queue = []) {base size : UInt64}
    (hrun : (Driving.loadConsts ⟨base⟩ size).run h = (.ok (), h')) :
    (∀ row < h.driver.arch.localDepth - 1,
        ¬ (base.toNat ≤ row.toNat ∧ row.toNat < base.toNat + size.toNat) →
          h'.device.localRow row = h.device.localRow row) ∧
      h.driver.banks.contents h'.machine .dram1 = h.driver.banks.contents h.machine .dram1 ∧
      h'.device.accumulator = h.device.accumulator ∧
      (h.device.register .dram1AddressOffset = h.driver.offsets.dram1 →
        ∀ row < h.driver.arch.localDepth - 1,
          base.toNat ≤ row.toNat → row.toNat < base.toNat + size.toNat →
            h'.device.localRow row =
              h.driver.arch.dataType.ofBytes (h.driver.banks.row h.machine .dram1 row)) := by
  by_cases hne : size = 0
  · subst hne
    cases hrun
    refine ⟨fun _ _ _ => rfl, rfl, rfl, fun _ row _ hlo hhi => ?_⟩
    exact absurd hhi (Nat.not_lt.mpr hlo)
  · have hclosed : ¬ h.Closed := fun hc => Bool.false_ne_true (hopen.symm.trans hc)
    have hheld := hr.held.resolve_left hclosed
    have hfind := hheld.finds_of_loadConsts hq hne hrun
    let c : ConstRef := ⟨"", base, size⟩
    -- the frame needs no more of the unit than DRAM0, and the contents of the rows DRAM1 as well
    obtain ⟨_, _, hon⟩ := (Driving.triple_loadConsts hheld.1 (c := c) (.inr hfind) fun _ _ =>
      List.mem_singleton_self c).ok (hheld.loading hq [] [c]) hrun
    have hloading := hon.remote.machine
    refine ⟨fun row hrow hout => hloading.scratchpad row ?_, ?_, hloading.accumulator,
      fun hfind1 row hrow hlo hhi => ?_⟩
    · rintro (hle | ⟨c', hc, hcovers⟩)
      · exact absurd hrow (UInt64.not_lt.mpr hle)
      · rw [List.mem_singleton.mp hc] at hcovers
        exact hout hcovers
    · exact List.ext_getElem? fun i => hloading.dram1 i fun _ hw => absurd hw List.not_mem_nil
    · have hrested : h.Rested := ⟨hr, hopen, hq, located_of_registers hfind hfind1⟩
      exact hrested.copies hloading.hold hne hrun hlo hhi hrow

section Small

def stocked (h : Driving (Switch Simulator)) : Driving (Switch Simulator) :=
  h.after (.write .dram1 ⟨0⟩ [7])

theorem loadConsts_copies_stocked :
    ∃ h h' : Driving (Switch Simulator), Reached (fun _ _ => True) h ∧ h.driver.closed = false ∧
      h.driver.probe.outstanding = false ∧ h.device.queue = [] ∧
      (Driving.loadConsts ⟨0⟩ 1).run h = (.ok (), h') ∧
      h.device.register .dram1AddressOffset = h.driver.offsets.dram1 ∧
      h.device.localRow 0 = [0] ∧ h'.device.localRow 0 = [7] ∧
      (∀ row < h.driver.arch.localDepth - 1, ¬ (0 ≤ row.toNat ∧ row.toNat < 0 + 1) →
        h'.device.localRow row = h.device.localRow row) ∧
      h.driver.banks.contents h'.machine .dram1 = h.driver.banks.contents h.machine .dram1 ∧
      h'.device.accumulator = h.device.accumulator := by
  obtain ⟨start, hs⟩ := exists_smallStart
  have hfacts : ∀ h ∈ smallStart, (stocked h).driver.closed = false ∧
      (stocked h).driver.probe.outstanding = false ∧ (stocked h).device.queue = [] ∧
      ((Driving.loadConsts ⟨0⟩ 1).run (stocked h)).1.toOption = some () ∧
      (stocked h).device.register .dram1AddressOffset = (stocked h).driver.offsets.dram1 ∧
      (stocked h).device.localRow 0 = [0] ∧ 0 < (stocked h).driver.arch.localDepth - 1 ∧
      (stocked h).driver.arch.dataType.ofBytes
        ((stocked h).driver.banks.row (stocked h).machine .dram1 0) = [7] := by decide +kernel
  obtain ⟨hopen, hout, hq, hok, hreg, hbefore, hrow, hbytes⟩ := hfacts start hs
  obtain ⟨h', hrun⟩ := exists_of_run hok
  have hr : Reached (fun _ _ => True) (stocked start) := .perform (reached_smallStart hs) trivial
  obtain ⟨hframe, hdram1, haccumulator, hcopied⟩ := loadConsts_copies hr hopen hq hrun
  refine ⟨_, h', hr, hopen, hout, hq, hrun, hreg, hbefore, ?_, hframe, hdram1, haccumulator⟩
  exact (hcopied hreg 0 hrow (Nat.le_refl _) Nat.zero_lt_one).trans hbytes

def tightArch : Architecture :=
  { smallArch with localDepth := 1, accumulatorDepth := 16 }

def tightStart : Option (Driving (Switch Simulator)) :=
  startWith tightArch Config.default

/-- The unit takes DRAM1 to be where DRAM0 is. -/
def misled (h : Driving (Switch Simulator)) : Driving (Switch Simulator) :=
  (stocked h).after (.configure [(.dram1AddressOffset, 0)])

/-- A unit that does not find DRAM1 copies other rows; and of rows up to the last one of the
scratchpad, the last one is lost to the probe behind them. -/
theorem loadConsts_spoils :
    (∃ h h' : Driving (Switch Simulator), Reached (fun _ _ => True) h ∧ h.driver.closed = false ∧
      h.driver.probe.outstanding = false ∧ h.device.queue = [] ∧ h.remote.plan.calls = [] ∧
      h.remote.remote.config.failBufferWriteAt = none ∧ 0 + 1 ≤ h.driver.arch.dram1Depth ∧
      0 + 1 ≤ h.driver.arch.localDepth - 1 ∧
      (Driving.loadConsts ⟨0⟩ 1).run h = (.ok (), h') ∧
      h'.device.localRow 0 ≠
        h.driver.arch.dataType.ofBytes (h.driver.banks.row h.machine .dram1 0)) ∧
    ∃ h h' : Driving (Switch Simulator), Reached (fun _ _ => True) h ∧ h.driver.closed = false ∧
      h.driver.probe.outstanding = false ∧ h.device.queue = [] ∧ h.remote.plan.calls = [] ∧
      h.remote.remote.config.failBufferWriteAt = none ∧ 0 + 1 ≤ h.driver.arch.dram1Depth ∧
      0 + 1 ≤ h.driver.arch.localDepth ∧
      h.device.register .dram1AddressOffset = h.driver.offsets.dram1 ∧
      (Driving.loadConsts ⟨0⟩ 1).run h = (.ok (), h') ∧
      h'.device.localRow 0 ≠
        h.driver.arch.dataType.ofBytes (h.driver.banks.row h.machine .dram1 0) := by
  constructor
  · obtain ⟨start, hs⟩ := exists_smallStart
    have hfacts : ∀ h ∈ smallStart, (misled h).driver.closed = false ∧
        (misled h).driver.probe.outstanding = false ∧ (misled h).device.queue = [] ∧
        (misled h).remote.plan.calls = [] ∧
        (misled h).remote.remote.config.failBufferWriteAt = none ∧
        0 + 1 ≤ (misled h).driver.arch.dram1Depth ∧
        0 + 1 ≤ (misled h).driver.arch.localDepth - 1 ∧
        ((Driving.loadConsts ⟨0⟩ 1).run (misled h)).1.toOption = some () ∧
        ((Driving.loadConsts ⟨0⟩ 1).run (misled h)).2.device.localRow 0 ≠
          (misled h).driver.arch.dataType.ofBytes
            ((misled h).driver.banks.row (misled h).machine .dram1 0) := by decide +kernel
    obtain ⟨hopen, hout, hq, hplan, hfail, h1, h2, hok, hrow⟩ := hfacts start hs
    obtain ⟨h', hrun⟩ := exists_of_run hok
    rw [hrun] at hrow
    exact ⟨misled start, h', .perform (.perform (reached_smallStart hs) trivial) trivial, hopen,
      hout, hq, hplan, hfail, h1, h2, hrun, hrow⟩
  · obtain ⟨start, hs⟩ : ∃ start, tightStart = some start :=
      Option.isSome_iff_exists.mp (by decide +kernel)
    have hfacts : ∀ h ∈ tightStart, (stocked h).driver.closed = false ∧
        (stocked h).driver.probe.outstanding = false ∧ (stocked h).device.queue = [] ∧
        (stocked h).remote.plan.calls = [] ∧
        (stocked h).remote.remote.config.failBufferWriteAt = none ∧
        0 + 1 ≤ (stocked h).driver.arch.dram1Depth ∧ 0 + 1 ≤ (stocked h).driver.arch.localDepth ∧
        (stocked h).device.register .dram1AddressOffset = (stocked h).driver.offsets.dram1 ∧
        ((Driving.loadConsts ⟨0⟩ 1).run (stocked h)).1.toOption = some () ∧
        ((Driving.loadConsts ⟨0⟩ 1).run (stocked h)).2.device.localRow 0 ≠
          (stocked h).driver.arch.dataType.ofBytes
            ((stocked h).driver.banks.row (stocked h).machine .dram1 0) := by decide +kernel
    obtain ⟨hopen, hout, hq, hplan, hfail, h1, h2, hreg, hok, hrow⟩ := hfacts start hs
    obtain ⟨h', hrun⟩ := exists_of_run hok
    rw [hrun] at hrow
    exact ⟨stocked start, h', .perform (reached_startWith hs) trivial, hopen, hout, hq, hplan,
      hfail, h1, h2, hreg, hrun, hrow⟩

end Small

end Host

end TensorUnit
