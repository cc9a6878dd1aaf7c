import TensorUnit.Proofs.Action
import TensorUnit.Proofs.Scalars
import TensorUnit.Proofs.Sim.Memory
import TensorUnit.Sim.Device

namespace TensorUnit

theorem Architecture.arraySize_ne_zero {arch : Architecture} (h : arch.validate = .ok ()) :
    arch.arraySize ≠ 0 := by
  unfold Architecture.validate at h
  split at h
  · cases h
  · rename_i hf
    unfold Architecture.fault? at hf
    split at hf
    · cases hf
    · rename_i hp
      have ha := List.find?_eq_none.mp hp ("array_size", arch.arraySize) (List.mem_cons_self ..)
      exact of_decide_eq_false (Bool.eq_false_iff.mpr ha)

theorem Architecture.arraySize_pos {arch : Architecture} (h : arch.validate = .ok ()) :
    0 < arch.arraySize.toNat :=
  Nat.pos_of_ne_zero fun hz => arraySize_ne_zero h (UInt64.toNat_inj.mp hz)

namespace Sim

open TensorUnit.Action (Triple Keeps)
open Remote (DeviceFault)
open Tcu (Instruction MoveFlag Register StridedAddress)

def tinyArch : Architecture :=
  { Architecture.pynqZ1 with arraySize := 1, localDepth := 4, accumulatorDepth := 2 }

/-- The buffers of the DRAM banks: their names, the blocks in which they start, and their size. -/
structure Banks where
  arch : Architecture
  name : Bank → String
  offset : Bank → UInt64
  size : Nat

namespace Banks

variable (b : Banks)

/-- Two buffers that are large enough for the rows of the banks. -/
structure Fit : Prop where
  names : b.name .dram0 ≠ b.name .dram1
  rowBytes : 0 < b.arch.rowBytes
  rows : ∀ k : Bank, (b.arch.depth k.space).toNat * b.arch.rowBytes ≤ b.size

def extent (k : Bank) : Extent :=
  ⟨b.name k, (b.offset k).toNat * blockBytes.toNat, b.size⟩

/-- The memory of a machine has the buffers, and its unit is the one they are for. -/
structure Hold (m : Machine) : Prop where
  arch : m.device.arch = b.arch
  cells : m.device.scratchpad.size = Device.cells b.arch b.arch.localDepth
  apart : m.memory.Apart
  extents : ∀ k, b.extent k ∈ m.memory.extents

def Located (d : Device) : Prop :=
  ∀ k : Bank, d.register (Machine.offsetRegister k.space) = b.offset k

def Finds (d : Device) (k : Bank) : Prop :=
  d.register (Machine.offsetRegister k.space) = b.offset k

def contents (m : Machine) (k : Bank) : List UInt8 :=
  m.memory.bytes (b.name k)

def row (m : Machine) (k : Bank) (row : UInt64) : List UInt8 :=
  ((b.contents m k).drop (row.toNat * b.arch.rowBytes)).take b.arch.rowBytes

def putRow (m : Machine) (k : Bank) (row : UInt64) (bytes : List UInt8) : Machine :=
  { m with memory := m.memory.write (b.name k) (.ofNat (row.toNat * b.arch.rowBytes)) bytes }

def put (m : Machine) (k : Bank) (start : Nat) (bytes : List UInt8) : Machine :=
  { m with memory := m.memory.write (b.name k) (.ofNat start) bytes }

theorem Finds.congr {b : Banks} {d e : Device} {k : Bank} (h : b.Finds d k)
    (hr : e.registers = d.registers) : b.Finds e k := by
  rwa [Finds, Device.register, hr]

end Banks

namespace Machine

theorem setLocalRow_run (row : UInt64) (values : List Int) (m : Machine) :
    (setLocalRow row values).run m =
      (.ok (), { m with device := { m.device with
        scratchpad := overwrite m.device.scratchpad (row.toNat * m.device.arch.arraySize.toNat)
          values } }) := by
  obtain ⟨⟨_, _, _, _, _, _⟩, _⟩ := m
  rfl

theorem setAccumulatorRow_run (row : UInt64) (values : List Int) (m : Machine) :
    (setAccumulatorRow row values).run m =
      (.ok (), { m with device := { m.device with
        accumulator := overwrite m.device.accumulator (row.toNat * m.device.arch.arraySize.toNat)
          values } }) := by
  obtain ⟨⟨_, _, _, _, _, _⟩, _⟩ := m
  rfl

theorem loadRow_run (address : UInt64) (m : Machine) :
    (loadRow address).run m =
      match m.memory.readAt? address m.device.arch.rowBytes with
      | some bytes => (.ok bytes, m)
      | none => (.error (.unmapped address), m) := by
  rw [loadRow, Action.bind_run, Action.view_run]
  simp only
  cases m.memory.readAt? address m.device.arch.rowBytes <;> rfl

theorem storeRow_run (address : UInt64) (bytes : List UInt8) (m : Machine) :
    (storeRow address bytes).run m =
      if (m.memory.regionAt? address bytes.length).isSome then
        (.ok (), { m with memory := m.memory.writeAt address bytes })
      else (.error (.unmapped address), m) := by
  rw [storeRow, Action.bind_run, Action.view_run]
  simp only
  rw [Action.bind_run, Action.require_run]
  by_cases hs : (m.memory.regionAt? address bytes.length).isSome
  · rw [if_pos hs, if_pos hs]
    rfl
  · rw [if_neg hs, if_neg hs]

theorem moveDramRow_run (flag : MoveFlag) (localRow row : UInt64) (m : Machine) :
    (moveDramRow flag localRow row).run m =
      if row < m.device.arch.depth flag.remote then
        match rowAddress? m.device flag.remote row with
        | none => (.error .addressOverflow, m)
        | some address =>
          if flag.isToLocal then
            match m.memory.readAt? address m.device.arch.rowBytes with
            | some bytes => (setLocalRow localRow (m.device.arch.dataType.ofBytes bytes)).run m
            | none => (.error (.unmapped address), m)
          else
            match m.device.arch.dataType.toBytes (m.device.localRow localRow) with
            | .error e => (.error (.scalar e), m)
            | .ok bytes => (storeRow address bytes).run m
      else (.error (.dramRow flag.remote row), m) := by
  rw [moveDramRow, Action.bind_run, Action.view_run]
  simp only
  rw [Action.bind_run, Action.require_run]
  by_cases hr : row < m.device.arch.depth flag.remote
  · rw [if_pos hr, if_pos hr]
    simp only
    cases rowAddress? m.device flag.remote row with
    | none => rfl
    | some address =>
      change (if flag.isToLocal then _ else _ : Step Unit).run m = if flag.isToLocal then _ else _
      by_cases ht : flag.isToLocal
      · rw [if_pos ht, if_pos ht, Action.bind_run, loadRow_run]
        cases m.memory.readAt? address m.device.arch.rowBytes <;> rfl
      · rw [if_neg ht, if_neg ht]
        cases m.device.arch.dataType.toBytes (m.device.localRow localRow) <;> rfl
  · rw [if_neg hr, if_neg hr]

theorem moveAccumulatorRow_run (flag : MoveFlag) (localRow row : UInt64) (m : Machine) :
    (moveAccumulatorRow flag localRow row).run m =
      if row < m.device.arch.accumulatorDepth then
        (match flag with
          | .accumulatorToLocal => setLocalRow localRow (m.device.accumulatorRow row)
          | .localToAccumulatorAccumulate =>
            setAccumulatorRow row ((m.device.accumulatorRow row).zipWith
              (fun a l => m.device.arch.dataType.saturate (a + l)) (m.device.localRow localRow))
          | _ => setAccumulatorRow row (m.device.localRow localRow)).run m
      else (.error (.accumulatorRow row), m) := by
  rw [moveAccumulatorRow, Action.bind_run, Action.view_run]
  simp only
  rw [Action.bind_run, Action.require_run]
  by_cases hr : row < m.device.arch.accumulatorDepth
  · rw [if_pos hr]
    exact (if_pos hr).symm
  · rw [if_neg hr]
    exact (if_neg hr).symm

theorem moveRow_run (flag : MoveFlag) (localRow row : UInt64) (m : Machine) :
    (moveRow flag localRow row).run m =
      if localRow < m.device.arch.localDepth then
        (match flag.remote with
          | .dram0 | .dram1 => moveDramRow flag localRow row
          | .accumulator | .scratchpad => moveAccumulatorRow flag localRow row).run m
      else (.error (.localRow localRow), m) := by
  rw [moveRow, Action.bind_run, Action.view_run]
  simp only
  rw [Action.bind_run, Action.require_run]
  by_cases hl : localRow < m.device.arch.localDepth
  · rw [if_pos hl]
    exact (if_pos hl).symm
  · rw [if_neg hl]
    exact (if_neg hl).symm

end Machine

theorem Memory.Apart.region?_of_mem {m : Memory} (h : m.Apart) {e : Extent} (he : e ∈ m.extents) :
    ∃ r, m.region? e.name = some r ∧ r.base.toNat = e.base ∧ r.contents.size = e.size := by
  obtain ⟨⟨name, r⟩, hr, rfl⟩ := List.mem_map.mp he
  cases hl : m.region? name with
  | none =>
    have hn := List.lookup_eq_none_iff.mp hl (name, r) hr
    simp at hn
  | some r' =>
    refine ⟨r', hl, ?_⟩
    by_contra hne
    have hd : Extent.of (name, r') ≠ Extent.of (name, r) := by
      intro he
      obtain ⟨_, hb, hs⟩ := Extent.mk.inj he
      exact hne ⟨hb, hs⟩
    have hm : Extent.of (name, r') ∈ m.extents := List.mem_map_of_mem (Memory.mem_regions hl)
    have : Std.Symm Extent.Apart := ⟨fun _ _ => Extent.Apart.symm⟩
    exact (h.apart.forall hm he hd).1 rfl

theorem Memory.length_bytes {m : Memory} (h : m.Apart) {e : Extent} (he : e ∈ m.extents) :
    (m.bytes e.name).length = e.size := by
  obtain ⟨r, hr, _, hs⟩ := h.region?_of_mem he
  rw [Memory.bytes, hr, ← hs]
  rfl

/-- Wherever a write at an address lands, it changes no byte but those it is for. -/
theorem Memory.Apart.getElem?_bytes_writeAt {m : Memory} (h : m.Apart) {e : Extent}
    (he : e ∈ m.extents) {address : UInt64} {data : List UInt8} (hl : 0 < data.length)
    (hs : (m.regionAt? address data.length).isSome) {i : Nat}
    (hi : e.base + i < address.toNat ∨ address.toNat + data.length ≤ e.base + i) :
    ((m.writeAt address data).bytes e.name)[i]? = (m.bytes e.name)[i]? := by
  obtain ⟨region, hregion⟩ := Option.isSome_iff_exists.mp hs
  obtain ⟨⟨name, r⟩, hfind, rfl⟩ := Option.map_eq_some_iff.mp hregion
  have hc := List.find?_some hfind
  obtain ⟨r', hr, hbase, hsize⟩ := h.region?_of_mem (e := .of (name, r))
    (List.mem_map_of_mem (List.mem_of_find?_eq_some hfind))
  simp only [Region.covers, Bool.and_eq_true, decide_eq_true_eq, UInt64.le_iff_toNat_le,
    Extent.of] at hc hr hbase hsize
  have hc' : r'.covers address data.length := by
    simp only [Region.covers, Bool.and_eq_true, decide_eq_true_eq, UInt64.le_iff_toNat_le]
    omega
  have hstart : (UInt64.ofNat (address.toNat - r'.base.toNat)).toNat =
      address.toNat - r'.base.toNat :=
    UInt64.toNat_ofNat_of_lt' (Nat.lt_of_le_of_lt (Nat.sub_le ..) address.toNat_lt)
  have hfit : (UInt64.ofNat (address.toNat - r'.base.toNat)).toNat + data.length ≤
      (m.bytes name).length := by
    have hlen : (m.bytes name).length = r'.contents.size := by
      rw [bytes, hr]
      rfl
    omega
  rw [h.writeAt_eq hr hl hc', bytes_write hfit]
  by_cases hn : e.name = name
  · obtain ⟨r'', hr'', hbase', _⟩ := h.region?_of_mem he
    cases (hn ▸ hr'').symm.trans hr
    rw [if_pos hn, getElem?_splice hfit, if_neg (by omega), hn]
  · rw [if_neg hn]

namespace Banks

variable {b : Banks}

theorem Hold.length_contents {m : Machine} (h : b.Hold m) (k : Bank) :
    (b.contents m k).length = b.size :=
  Memory.length_bytes h.apart (h.extents k)

/-- Two buffers of one size leave no room for either to reach the limit. -/
theorem Hold.size_lt_byteLimit (hf : b.Fit) {m : Machine} (h : b.Hold m) : b.size < byteLimit := by
  have : Std.Symm Extent.Apart := ⟨fun _ _ => Extent.Apart.symm⟩
  have hapart : (b.extent .dram0).Apart (b.extent .dram1) :=
    h.apart.apart.forall (h.extents .dram0) (h.extents .dram1) fun he =>
      hf.names (congrArg Extent.name he)
  have h0 := (h.apart.below _ (h.extents .dram0)).1
  have h1 := (h.apart.below _ (h.extents .dram1)).1
  have hnext := m.memory.next.toNat_lt
  have hstops := hapart.2
  simp only [Extent.stop, extent] at h0 h1 hstops
  change b.size < 2 ^ 63
  omega

theorem Fit.row_le (hf : b.Fit) {k : Bank} {row : UInt64} (hr : row < b.arch.depth k.space) :
    row.toNat * b.arch.rowBytes + b.arch.rowBytes ≤ b.size := by
  have hk := hf.rows k
  have hl := UInt64.lt_iff_toNat_lt.mp hr
  have hm := Nat.mul_le_mul_right b.arch.rowBytes (Nat.succ_le_of_lt hl)
  rw [Nat.succ_mul] at hm
  omega

theorem Hold.rowAddress (hf : b.Fit) {m : Machine} (h : b.Hold m) {k : Bank}
    (hl : b.Finds m.device k) {row : UInt64} (hr : row < b.arch.depth k.space) :
    ∃ address r, Machine.rowAddress? m.device k.space row = some address ∧
      m.memory.region? (b.name k) = some r ∧
      r.base.toNat + row.toNat * b.arch.rowBytes = address.toNat ∧ r.contents.size = b.size := by
  obtain ⟨r, hreg, hbase, hsize⟩ := h.apart.region?_of_mem (h.extents k)
  have hrow := hf.row_le hr
  have hstop := (h.apart.below _ (h.extents k)).1
  have hnext := m.memory.next.toNat_lt
  have hlt : r.base.toNat + row.toNat * b.arch.rowBytes < 2 ^ 64 := by
    simp only [Extent.stop, extent] at hstop hbase
    omega
  refine ⟨.ofNat (r.base.toNat + row.toNat * b.arch.rowBytes), r, ?_, hreg, ?_, hsize⟩
  · rw [Machine.rowAddress?, show _ = b.offset k from hl, h.arch, Exact.ofNat?_eq_some_iff,
      UInt64.toNat_ofNat_of_lt' hlt, hbase]
    rfl
  · exact (UInt64.toNat_ofNat_of_lt' hlt).symm

theorem covers_row {r : Region} {address : UInt64} {start length : Nat}
    (ha : r.base.toNat + start = address.toNat) (hs : start + length ≤ r.contents.size) :
    r.covers address length := by
  simp only [Region.covers, Bool.and_eq_true, decide_eq_true_eq, UInt64.le_iff_toNat_le]
  omega

section Row

variable (hf : b.Fit) {m : Machine} (h : b.Hold m) {k : Bank} (hl : b.Finds m.device k)
  {row address : UInt64} (hr : row < b.arch.depth k.space)
  (ha : Machine.rowAddress? m.device k.space row = some address)
include hf h hl hr ha

theorem Hold.covered : ∃ r, m.memory.region? (b.name k) = some r ∧
    r.base.toNat + row.toNat * b.arch.rowBytes = address.toNat ∧
    r.covers address b.arch.rowBytes := by
  obtain ⟨address', r, ha', hreg, hb, hs⟩ := h.rowAddress hf hl hr
  rw [ha] at ha'
  cases ha'
  exact ⟨r, hreg, hb, covers_row hb (by rw [hs]; exact hf.row_le hr)⟩

theorem Hold.regionAt?_row :
    m.memory.regionAt? address b.arch.rowBytes = m.memory.region? (b.name k) := by
  obtain ⟨r, hreg, _, hc⟩ := h.covered hf hl hr ha
  rw [hreg]
  exact h.apart.find?_covers hreg hf.rowBytes hc

theorem Hold.readAt?_row :
    m.memory.readAt? address b.arch.rowBytes = some (b.row m k row) := by
  obtain ⟨r, hreg, hb, hc⟩ := h.covered hf hl hr ha
  rw [h.apart.readAt?_eq hreg hf.rowBytes hc, ← hb, Nat.add_sub_cancel_left]
  rfl

theorem Hold.writeAt_row {bytes : List UInt8} (hn : bytes.length = b.arch.rowBytes) :
    m.memory.writeAt address bytes = (b.putRow m k row bytes).memory := by
  obtain ⟨r, hreg, hb, hc⟩ := h.covered hf hl hr ha
  rw [← hn] at hc
  rw [h.apart.writeAt_eq hreg (by rw [hn]; exact hf.rowBytes) hc, ← hb, Nat.add_sub_cancel_left]
  rfl

theorem Hold.storeRow_run {bytes : List UInt8} (hn : bytes.length = b.arch.rowBytes) :
    (Machine.storeRow address bytes).run m = (.ok (), b.putRow m k row bytes) := by
  have hsome : (m.memory.regionAt? address bytes.length).isSome := by
    obtain ⟨r, hreg, _⟩ := h.covered hf hl hr ha
    rw [hn, h.regionAt?_row hf hl hr ha, hreg]
    rfl
  rw [Machine.storeRow_run, if_pos hsome, h.writeAt_row hf hl hr ha hn]
  rfl

end Row

theorem Hold.length_localRow {m : Machine} (h : b.Hold m) {localRow : UInt64}
    (hlocal : localRow < b.arch.localDepth) :
    (m.device.localRow localRow).length = b.arch.arraySize.toNat := by
  have hl := UInt64.lt_iff_toNat_lt.mp hlocal
  have hm := Nat.mul_le_mul_right b.arch.arraySize.toNat (Nat.succ_le_of_lt hl)
  rw [Nat.succ_mul] at hm
  have hc := h.cells
  rw [Device.localRow, window_eq, List.length_take, List.length_drop, Array.length_toList,
    Device.width, h.arch]
  unfold Device.cells at hc
  omega

theorem Hold.length_toBytes {m : Machine} (h : b.Hold m) {localRow : UInt64}
    (hlocal : localRow < b.arch.localDepth) {bytes : List UInt8}
    (hb : b.arch.dataType.toBytes (m.device.localRow localRow) = .ok bytes) :
    bytes.length = b.arch.rowBytes := by
  rw [DataType.length_toBytes hb, h.length_localRow hlocal, Architecture.rowBytes]

theorem Hold.moveDramRow_run (hf : b.Fit) {m : Machine} (h : b.Hold m) {k : Bank}
    (hl : b.Finds m.device k) {flag : MoveFlag} (hk : flag.remote = k.space)
    {localRow row : UInt64} (hlocal : localRow < b.arch.localDepth) :
    (Machine.moveDramRow flag localRow row).run m =
      if row < b.arch.depth k.space then
        if flag.isToLocal then
          (Machine.setLocalRow localRow (b.arch.dataType.ofBytes (b.row m k row))).run m
        else
          match b.arch.dataType.toBytes (m.device.localRow localRow) with
          | .error e => (.error (.scalar e), m)
          | .ok bytes => (.ok (), b.putRow m k row bytes)
      else (.error (.dramRow k.space row), m) := by
  rw [Machine.moveDramRow_run, h.arch, hk]
  by_cases hr : row < b.arch.depth k.space
  · obtain ⟨address, _, ha, _⟩ := h.rowAddress hf hl hr
    rw [if_pos hr, if_pos hr, ha]
    simp only
    rw [h.readAt?_row hf hl hr ha]
    by_cases ht : flag.isToLocal
    · rw [if_pos ht, if_pos ht]
    · rw [if_neg ht, if_neg ht]
      cases hb : b.arch.dataType.toBytes (m.device.localRow localRow) with
      | error e => rfl
      | ok bytes => exact h.storeRow_run hf hl hr ha (h.length_toBytes hlocal hb)
  · rw [if_neg hr, if_neg hr]

end Banks

namespace Machine

/-- What no instruction changes: the queue, the count, and where the buffers are. -/
structure Kept (m m' : Machine) : Prop where
  arch : m'.device.arch = m.device.arch
  cells : m'.device.scratchpad.size = m.device.scratchpad.size
  queue : m'.device.queue = m.device.queue
  executed : m'.device.executed = m.device.executed
  next : m'.memory.next = m.memory.next
  extents : m'.memory.extents = m.memory.extents

theorem Kept.refl (m : Machine) : Kept m m :=
  ⟨rfl, rfl, rfl, rfl, rfl, rfl⟩

theorem keeps_setLocalRow {m₀ : Machine} {row : UInt64} {values : List Int} :
    Keeps (Kept m₀) (setLocalRow row values) := by
  apply Triple.update
  rintro ⟨⟨arch, registers, scratchpad, accumulator, queue, executed⟩, memory⟩ h
  exact ⟨h.arch, (size_overwrite ..).trans h.cells, h.queue, h.executed, h.next, h.extents⟩

theorem keeps_setAccumulatorRow {m₀ : Machine} {row : UInt64} {values : List Int} :
    Keeps (Kept m₀) (setAccumulatorRow row values) := by
  apply Triple.update
  rintro ⟨⟨arch, registers, scratchpad, accumulator, queue, executed⟩, memory⟩ h
  exact ⟨h.arch, h.cells, h.queue, h.executed, h.next, h.extents⟩

theorem keeps_loadRow {m₀ : Machine} {address : UInt64} :
    Keeps (Kept m₀) (loadRow address) := by
  apply Keeps.bind Keeps.view
  intro result
  cases result with
  | none => exact Keeps.fail
  | some bytes => exact Keeps.pure

theorem keeps_storeRow {m₀ : Machine} {address : UInt64} {bytes : List UInt8} :
    Keeps (Kept m₀) (storeRow address bytes) := by
  refine Keeps.bind Keeps.view fun mapped => Keeps.bind Keeps.require fun _ => ?_
  apply Keeps.update
  intro m h
  exact ⟨h.arch, h.cells, h.queue, h.executed, h.next,
    (Memory.extents_writeAt ..).trans h.extents⟩

theorem keeps_address {P : Machine → Prop} {result : Option UInt64} :
    Keeps P (Machine.address result) := by
  cases result with
  | none => exact Keeps.fail
  | some address => exact Keeps.pure

theorem keeps_moveRow {m₀ : Machine} {flag : MoveFlag} {localRow row : UInt64} :
    Keeps (Kept m₀) (moveRow flag localRow row) := by
  have hdram : Keeps (Kept m₀) (moveDramRow flag localRow row) := by
    refine Keeps.bind Keeps.view fun d => Keeps.bind Keeps.require fun _ => ?_
    apply keeps_address.bind
    intro address
    split
    · exact keeps_loadRow.bind fun _ => keeps_setLocalRow
    · split
      · exact Keeps.fail
      · exact keeps_storeRow
  have hacc : Keeps (Kept m₀) (moveAccumulatorRow flag localRow row) := by
    refine Keeps.bind Keeps.view fun d => Keeps.bind Keeps.require fun _ => ?_
    split
    · exact keeps_setLocalRow
    · exact keeps_setAccumulatorRow
    · exact keeps_setAccumulatorRow
  refine Keeps.bind Keeps.view fun d => Keeps.bind Keeps.require fun _ => ?_
  split
  · exact hdram
  · exact hdram
  · exact hacc
  · exact hacc

theorem strided?_unit_zero (a : UInt64) : strided? (.unit a) (.ofNat 0) = some a :=
  Exact.add?_eq_some_iff.mpr (Nat.add_zero _)

theorem toNat_strided?_unit {a row : UInt64} {i : Nat} (hi : i < 2 ^ 64)
    (h : strided? (.unit a) (.ofNat i) = some row) : row.toNat = a.toNat + i := by
  have hadd := Exact.add?_eq_some_iff.mp (by simpa [strided?, StridedAddress.unit] using h)
  rw [← hadd, UInt64.toNat_ofNat_of_lt' hi]

/-- Rows are moved one after the other: `I j` holds when those before the one `j` steps on are
moved. -/
theorem triple_moveRows {I : Nat → Machine → Prop} {E : Machine → Prop} {flag : MoveFlag}
    {scratchpad address : StridedAddress} {i count : Nat}
    (h : ∀ j localRow row, i ≤ j → j < i + count → strided? scratchpad (.ofNat j) = some localRow →
      strided? address (.ofNat j) = some row →
      Triple (I j) (moveRow flag localRow row) (fun _ => I (j + 1)) E)
    (hover : ∀ j m, i ≤ j → j < i + count →
      strided? scratchpad (.ofNat j) = none ∨ strided? address (.ofNat j) = none → I j m → E m) :
    Triple (I i) (moveRows flag scratchpad address i count) (fun _ => I (i + count)) E := by
  induction count generalizing i with
  | zero => exact Triple.pure fun _ h => h
  | succ count ih =>
    cases hs : strided? scratchpad (.ofNat i) with
    | none =>
      intro m hm
      rw [moveRows, hs]
      exact hover i m (Nat.le_refl i) (by omega) (.inl hs) hm
    | some localRow =>
      cases hr : strided? address (.ofNat i) with
      | none =>
        intro m hm
        rw [moveRows, hs, hr]
        exact hover i m (Nat.le_refl i) (by omega) (.inr hr) hm
      | some row =>
        rw [moveRows, hs, hr]
        refine (h i localRow row (Nat.le_refl i) (by omega) hs hr).bind fun _ => ?_
        have hrest := ih (i := i + 1) (fun j localRow row hi hj => h j localRow row (by omega)
          (by omega)) fun j m hi hj => hover j m (by omega) (by omega)
        rwa [Nat.add_assoc, Nat.add_comm 1] at hrest

theorem keeps_moveRows {P : Machine → Prop} {flag : MoveFlag} {scratchpad address : StridedAddress}
    {i count : Nat}
    (h : ∀ j row localRow, i ≤ j → j < i + count → strided? address (.ofNat j) = some row →
      Keeps P (moveRow flag localRow row)) :
    Keeps P (moveRows flag scratchpad address i count) :=
  triple_moveRows (I := fun _ => P) (fun j localRow row hi hj _ hr => h j row localRow hi hj hr)
    fun _ _ _ _ _ hm => hm

theorem kept_execute (instr : Instruction) (m : Machine) :
    Kept m ((execute instr).run m).2 := by
  have hk : Keeps (Kept m) (execute instr) := by
    cases instr with
    | noOp => exact Keeps.pure
    | configure register value =>
      apply Keeps.update
      intro m' h
      exact ⟨h.arch, h.cells, h.queue, h.executed, h.next, h.extents⟩
    | dataMove flag scratchpad address size =>
      exact keeps_moveRows fun _ _ _ _ _ _ => keeps_moveRow
    | matMul | loadWeights => exact Keeps.fail
  exact hk.state (Kept.refl m)

end Machine

theorem Banks.Hold.of_kept {b : Banks} {m m' : Machine} (h : b.Hold m) (hk : m.Kept m') :
    b.Hold m' :=
  ⟨hk.arch.trans h.arch, hk.cells.trans h.cells, h.apart.congr hk.extents hk.next,
    fun k => hk.extents ▸ h.extents k⟩

/-- The instruction is told to write a row of DRAM0. -/
def WritesDram0 : Instruction → UInt64 → Prop
  | .dataMove .localToDram0 _ address size, row =>
    ∃ i < size.toNat + 1, Machine.strided? address (.ofNat i) = some row
  | _, _ => False

theorem writesDram0_move_iff {localRow row r : UInt64} :
    WritesDram0 (.move .localToDram0 localRow row 0) r ↔ r = row := by
  constructor
  · rintro ⟨i, hi, he⟩
    obtain rfl : i = 0 := Nat.lt_one_iff.mp hi
    exact Option.some.inj (he.symm.trans (Machine.strided?_unit_zero row))
  · rintro rfl
    exact ⟨0, Nat.succ_pos _, Machine.strided?_unit_zero r⟩

/-- The instruction tells the unit where a bank is. -/
def ConfiguresBank : Instruction → Prop
  | .configure register _ => ∃ k : Bank, register = Machine.offsetRegister k.space
  | _ => False

namespace Banks

variable {b : Banks}

/-- All that may have changed in the memory are the banks, and of DRAM0 the given rows. -/
structure Spares (b : Banks) (rows : UInt64 → Prop) (m m' : Memory) : Prop where
  other : ∀ name, (∀ k, name ≠ b.name k) → m'.bytes name = m.bytes name
  dram0 : ∀ i, (∀ row, rows row → row.toNat ≠ i / b.arch.rowBytes) →
    (m'.bytes (b.name .dram0))[i]? = (m.bytes (b.name .dram0))[i]?

structure Frame (b : Banks) (rows : UInt64 → Prop) (m m' : Machine) : Prop where
  kept : m.Kept m'
  registers : m'.device.registers = m.device.registers
  spares : b.Spares rows m.memory m'.memory

theorem Spares.refl (rows : UInt64 → Prop) (m : Memory) : b.Spares rows m m :=
  ⟨fun _ _ => rfl, fun _ _ => rfl⟩

theorem Frame.refl (rows : UInt64 → Prop) (m : Machine) : b.Frame rows m m :=
  ⟨.refl m, rfl, .refl rows m.memory⟩

theorem Frame.located {rows : UInt64 → Prop} {m m' : Machine} (h : b.Frame rows m m')
    (hl : b.Located m.device) : b.Located m'.device := by
  intro k
  rw [Device.register, h.registers]
  exact hl k

theorem Fit.name_ne (hf : b.Fit) {k j : Bank} (h : k ≠ j) : b.name k ≠ b.name j := by
  cases k <;> cases j
  · exact absurd rfl h
  · exact hf.names
  · exact hf.names.symm
  · exact absurd rfl h

theorem Hold.toNat_start {m : Machine} (h : b.Hold m) {start : Nat} (hs : start ≤ b.size) :
    (UInt64.ofNat start).toNat = start := by
  have hstop := (h.apart.below _ (h.extents .dram0)).1
  have hnext := m.memory.next.toNat_lt
  simp only [Extent.stop, extent] at hstop
  exact UInt64.toNat_ofNat_of_lt' (by change _ < 2 ^ 64; omega)

theorem Hold.contents_put {m : Machine} (h : b.Hold m) {k : Bank} {start : Nat}
    {bytes : List UInt8} (hfit : start + bytes.length ≤ b.size) (name : String) :
    (b.put m k start bytes).memory.bytes name =
      if name = b.name k then splice (b.contents m k) start bytes
      else m.memory.bytes name := by
  have ho := h.toNat_start (Nat.le_trans (Nat.le_add_right ..) hfit)
  have hle : (UInt64.ofNat start).toNat + bytes.length ≤ (m.memory.bytes (b.name k)).length := by
    rw [ho]
    exact (h.length_contents k).symm ▸ hfit
  have hw := Memory.bytes_write hle name
  rw [ho] at hw
  exact hw

theorem Hold.contents_putRow (hf : b.Fit) {m : Machine} (h : b.Hold m) {k : Bank} {row : UInt64}
    (hr : row < b.arch.depth k.space) {bytes : List UInt8} (hn : bytes.length ≤ b.arch.rowBytes)
    (name : String) :
    (b.putRow m k row bytes).memory.bytes name =
      if name = b.name k then splice (b.contents m k) (row.toNat * b.arch.rowBytes) bytes
      else m.memory.bytes name :=
  h.contents_put (Nat.le_trans (Nat.add_le_add_left hn _) (hf.row_le hr)) name

theorem kept_put (m : Machine) (k : Bank) (start : Nat) (bytes : List UInt8) :
    m.Kept (b.put m k start bytes) :=
  ⟨rfl, rfl, rfl, rfl, rfl, Memory.extents_write ..⟩

theorem kept_putRow (m : Machine) (k : Bank) (row : UInt64) (bytes : List UInt8) :
    m.Kept (b.putRow m k row bytes) :=
  kept_put ..

theorem Frame.putRow (hf : b.Fit) {rows : UInt64 → Prop} {m₀ m : Machine}
    (hm : b.Frame rows m₀ m) (h : b.Hold m) {k : Bank} {row : UInt64}
    (hr : row < b.arch.depth k.space) {bytes : List UInt8} (hn : bytes.length = b.arch.rowBytes)
    (hrow : k = .dram0 → rows row) : b.Frame rows m₀ (b.putRow m k row bytes) := by
  have hk := kept_putRow (b := b) m k row bytes
  have hc := h.contents_putRow hf hr (Nat.le_of_eq hn)
  have hkept := hm.kept
  refine ⟨⟨hkept.arch, hkept.cells, hkept.queue, hkept.executed, hkept.next,
    hk.extents.trans hkept.extents⟩, hm.registers, fun name hname => ?_, fun i hi => ?_⟩
  · rw [hc, if_neg (hname k)]
    exact hm.spares.other name hname
  · rw [hc]
    by_cases he : b.name .dram0 = b.name k
    · have hk0 : k = .dram0 := by
        by_contra hne
        exact hf.name_ne (fun h => hne h.symm) he
      subst hk0
      have hlen := h.length_contents .dram0
      have hle := hf.row_le hr
      have hout : ¬ (row.toNat * b.arch.rowBytes ≤ i ∧
          i < row.toNat * b.arch.rowBytes + bytes.length) := by
        rw [hn]
        rintro ⟨hlo, hhi⟩
        refine hi row (hrow rfl) (Nat.div_eq_of_lt_le hlo ?_).symm
        rw [Nat.succ_mul]
        exact hhi
      rw [if_pos rfl, getElem?_splice (by omega), if_neg hout]
      exact hm.spares.dram0 i hi
    · rw [if_neg he]
      exact hm.spares.dram0 i hi

theorem Frame.keeps_setLocalRow {rows : UInt64 → Prop} {m₀ : Machine} {row : UInt64}
    {values : List Int} : Keeps (b.Frame rows m₀) (Machine.setLocalRow row values) := by
  apply Triple.update
  rintro m h
  exact ⟨Machine.keeps_setLocalRow m h.kept, h.registers, h.spares⟩

theorem Frame.keeps_setAccumulatorRow {rows : UInt64 → Prop} {m₀ : Machine} {row : UInt64}
    {values : List Int} : Keeps (b.Frame rows m₀) (Machine.setAccumulatorRow row values) := by
  apply Triple.update
  rintro m h
  exact ⟨Machine.keeps_setAccumulatorRow m h.kept, h.registers, h.spares⟩

section Located

variable (hf : b.Fit) {rows : UInt64 → Prop} {m₀ : Machine} (h₀ : b.Hold m₀)
  (hl₀ : b.Located m₀.device)
include hf h₀ hl₀

theorem Frame.keeps_moveRow {flag : MoveFlag} {localRow row : UInt64}
    (hrow : flag = .localToDram0 → rows row) :
    Keeps (b.Frame rows m₀) (Machine.moveRow flag localRow row) := by
  intro m hm
  have h := h₀.of_kept hm.kept
  have hl := hm.located hl₀
  have hdram : ∀ k : Bank, flag.remote = k.space → localRow < b.arch.localDepth →
      Triple (fun s => s = m) (Machine.moveDramRow flag localRow row) (fun _ => b.Frame rows m₀)
        (b.Frame rows m₀) := by
    intro k hk hlocal s hs
    subst s
    rw [h.moveDramRow_run hf (hl k) hk hlocal]
    by_cases hr : row < b.arch.depth k.space
    · rw [if_pos hr]
      by_cases ht : flag.isToLocal
      · rw [if_pos ht]
        exact Frame.keeps_setLocalRow m hm
      · rw [if_neg ht]
        cases hb : b.arch.dataType.toBytes (m.device.localRow localRow) with
        | error e => exact hm
        | ok bytes =>
          refine hm.putRow hf h hr (h.length_toBytes hlocal hb) fun hk0 => hrow ?_
          subst hk0
          cases flag <;> first | rfl | exact absurd rfl ht | cases hk
    · rw [if_neg hr]
      exact hm
  rw [Machine.moveRow, Action.bind_run, Action.view_run]
  simp only
  rw [Action.bind_run, Action.require_run, h.arch]
  by_cases hlocal : localRow < b.arch.localDepth
  · rw [if_pos hlocal]
    simp only
    cases hs : flag.remote with
    | dram0 => exact hdram .dram0 hs hlocal m rfl
    | dram1 => exact hdram .dram1 hs hlocal m rfl
    | accumulator | scratchpad =>
      refine Triple.bind (Q := fun _ => b.Frame rows m₀) (Triple.view fun _ h => h)
        (fun d => ?_) m hm
      refine Triple.bind (Q := fun _ => b.Frame rows m₀)
        (Triple.require (fun _ _ h => h) fun _ _ h => h) fun _ => ?_
      split
      · exact Frame.keeps_setLocalRow
      · exact Frame.keeps_setAccumulatorRow
      · exact Frame.keeps_setAccumulatorRow
  · rw [if_neg hlocal]
    exact hm

/-- An instruction changes the rows of DRAM0 that it is told to write. -/
theorem frame_execute {instr : Instruction} (hi : ∀ r v, instr ≠ .configure r v) :
    b.Frame (WritesDram0 instr) m₀ ((Machine.execute instr).run m₀).2 := by
  have hk : Keeps (b.Frame (WritesDram0 instr) m₀) (Machine.execute instr) := by
    cases instr with
    | noOp => exact Triple.pure fun _ h => h
    | configure register value => exact absurd rfl (hi register value)
    | dataMove flag scratchpad address size =>
      apply Machine.keeps_moveRows
      intro j row localRow _ hj hs
      apply Frame.keeps_moveRow hf h₀ hl₀
      intro hflag
      subst hflag
      exact ⟨j, by omega, hs⟩
    | matMul | loadWeights => exact Triple.fail fun _ h => h
  exact hk.state (.refl _ m₀)

end Located

end Banks

end Sim

end TensorUnit
