import TensorUnit.Proofs.Sim.Order
import TensorUnit.Proofs.Sim.Resolution
import TensorUnit.Proofs.Sim.Rows

namespace TensorUnit.Sim

open TensorUnit.Action (Confined)
open Remote (DeviceFault)
open Tcu (Instruction MoveFlag Register StridedAddress)

theorem mem_overwrite {α : Type} {x : α} {cells : Array α} {index : Nat} {values : List α}
    (h : x ∈ overwrite cells index values) : x ∈ cells ∨ x ∈ values := by
  induction values generalizing cells index with
  | nil => exact .inl h
  | cons v values ih =>
    rw [overwrite] at h
    split at h
    · rcases ih h with h | h
      · rcases Array.mem_or_eq_of_mem_set h with h | rfl
        · exact .inl h
        · exact .inr (List.mem_cons_self ..)
      · exact .inr (List.mem_cons_of_mem _ h)
    · exact .inl h

theorem mem_of_mem_window {α : Type} {x : α} {cells : Array α} {index length : Nat}
    (h : x ∈ window cells index length) : x ∈ cells := by
  rw [window_eq] at h
  exact Array.mem_toList_iff.mp (List.mem_of_mem_drop (List.mem_of_mem_take h))

theorem length_window {α : Type} {cells : Array α} {index length : Nat}
    (h : index + length ≤ cells.size) : (window cells index length).length = length := by
  rw [window_eq, List.length_take, List.length_drop, Array.length_toList]
  omega

namespace Device

/-- The memories of a unit have their sizes, and hold numbers of its data type. -/
structure Sound (arch : Architecture) (d : Device) : Prop where
  built : d.arch = arch
  scratchpad : d.scratchpad.size = cells arch arch.localDepth
  accumulator : d.accumulator.size = cells arch arch.accumulatorDepth
  scalars : ∀ v, v ∈ d.scratchpad ∨ v ∈ d.accumulator → arch.dataType.Holds v

theorem row_le_cells (arch : Architecture) {depth row : UInt64} (h : row < depth) :
    row.toNat * arch.arraySize.toNat + arch.arraySize.toNat ≤ cells arch depth := by
  rw [cells, ← Nat.succ_mul]
  exact Nat.mul_le_mul_right _ (Nat.succ_le_of_lt (UInt64.lt_iff_toNat_lt.mp h))

variable {arch : Architecture} {d : Device} {row : UInt64}

theorem sound_fresh (arch : Architecture) : (fresh arch).Sound arch := by
  refine ⟨rfl, Array.size_replicate, Array.size_replicate, fun v hv => ?_⟩
  have hzero : v = 0 := hv.elim Array.eq_of_mem_replicate Array.eq_of_mem_replicate
  rw [hzero]
  cases arch.dataType <;> decide

theorem Sound.length_localRow (h : d.Sound arch) (hr : row < arch.localDepth) :
    (d.localRow row).length = arch.arraySize.toNat := by
  have hle := row_le_cells arch hr
  rw [localRow, width, h.built, length_window (h.scratchpad ▸ hle)]

theorem Sound.length_accumulatorRow (h : d.Sound arch) (hr : row < arch.accumulatorDepth) :
    (d.accumulatorRow row).length = arch.arraySize.toNat := by
  have hle := row_le_cells arch hr
  rw [accumulatorRow, width, h.built, length_window (h.accumulator ▸ hle)]

theorem Sound.holds_localRow (h : d.Sound arch) {v : Int} (hv : v ∈ d.localRow row) :
    arch.dataType.Holds v :=
  h.scalars v (.inl (mem_of_mem_window hv))

theorem Sound.holds_accumulatorRow (h : d.Sound arch) {v : Int} (hv : v ∈ d.accumulatorRow row) :
    arch.dataType.Holds v :=
  h.scalars v (.inr (mem_of_mem_window hv))

theorem Sound.toBytes_localRow_eq (h : d.Sound arch) (row : UInt64) :
    arch.dataType.toBytes (d.localRow row) =
      .ok ((d.localRow row).flatMap arch.dataType.scalarToBytes) :=
  DataType.toBytes_eq_ok_iff.mpr ⟨fun _ hv => h.holds_localRow hv, rfl⟩

theorem Sound.toBytes_localRow (h : d.Sound arch) (hr : row < arch.localDepth) :
    ∃ bytes, arch.dataType.toBytes (d.localRow row) = .ok bytes ∧
      bytes.length = arch.rowBytes := by
  have hb := h.toBytes_localRow_eq row
  refine ⟨_, hb, ?_⟩
  rw [DataType.length_toBytes hb, h.length_localRow hr, Architecture.rowBytes]

theorem Sound.congr (h : d.Sound arch) {e : Device} (ha : e.arch = d.arch)
    (hs : e.scratchpad = d.scratchpad) (hc : e.accumulator = d.accumulator) : e.Sound arch := by
  obtain ⟨built, scratchpad, accumulator, scalars⟩ := h
  exact ⟨by rwa [ha], by rwa [hs], by rwa [hc], by rwa [hs, hc]⟩

end Device

/-- A fault that is not due to a value that is no scalar. -/
def OtherThanScalar (fault : DeviceFault) : Prop :=
  ∀ e, fault ≠ .scalar e

namespace Machine

variable {arch : Architecture} {flag : MoveFlag} {localRow row : UInt64} {values : List Int}

def Sound (arch : Architecture) (m : Machine) : Prop :=
  m.device.Sound arch

theorem confined_setLocalRow (hv : ∀ v ∈ values, arch.dataType.Holds v) :
    Confined (Sound arch) OtherThanScalar (setLocalRow row values) := by
  apply Confined.update
  rintro ⟨⟨_, _, _, _, _, _⟩, _⟩ ⟨built, scratchpad, accumulator, scalars⟩
  refine ⟨built, (size_overwrite ..).trans scratchpad, accumulator, fun v h => ?_⟩
  rcases h with h | h
  · exact (mem_overwrite h).elim (fun h => scalars v (.inl h)) (hv v)
  · exact scalars v (.inr h)

theorem confined_setAccumulatorRow (hv : ∀ v ∈ values, arch.dataType.Holds v) :
    Confined (Sound arch) OtherThanScalar (setAccumulatorRow row values) := by
  apply Confined.update
  rintro ⟨⟨_, _, _, _, _, _⟩, _⟩ ⟨built, scratchpad, accumulator, scalars⟩
  refine ⟨built, scratchpad, (size_overwrite ..).trans accumulator, fun v h => ?_⟩
  rcases h with h | h
  · exact scalars v (.inl h)
  · exact (mem_overwrite h).elim (fun h => scalars v (.inr h)) (hv v)

theorem confined_address {result : Option UInt64} :
    Confined (Sound arch) OtherThanScalar (Machine.address result) := by
  cases result with
  | none => exact Confined.fail fun _ he => nomatch he
  | some address => exact Confined.pure

theorem confined_moveDramRow :
    Confined (Sound arch) OtherThanScalar (moveDramRow flag localRow row) := by
  refine Confined.view fun m h => Confined.guard (fun _ _ he => nomatch he) fun _ =>
    confined_address.bind fun address => ?_
  split
  · refine Confined.bind (Confined.view fun t _ => ?_) fun bytes =>
      confined_setLocalRow fun v hv => ?_
    · cases t.memory.readAt? address t.device.arch.rowBytes with
      | none => exact Confined.fail fun _ he => nomatch he
      | some bytes => exact Confined.pure
    · rw [h.built] at hv
      exact DataType.holds_of_mem_ofBytes hv
  · rw [h.built, h.toBytes_localRow_eq]
    exact Confined.view fun t _ => Confined.guard (fun _ _ he => nomatch he) fun _ =>
      Confined.update fun _ h => h

theorem confined_moveAccumulatorRow :
    Confined (Sound arch) OtherThanScalar (moveAccumulatorRow flag localRow row) := by
  refine Confined.view fun m h => Confined.guard (fun _ _ he => nomatch he) fun _ => ?_
  split
  · exact confined_setLocalRow fun _ hv => h.holds_accumulatorRow hv
  · refine confined_setAccumulatorRow fun v hv => ?_
    rw [h.built, ← List.map_uncurry_zip_eq_zipWith] at hv
    obtain ⟨_, _, rfl⟩ := List.mem_map.mp hv
    exact DataType.holds_saturate ..
  · exact confined_setAccumulatorRow fun _ hv => h.holds_localRow hv

theorem confined_moveRow : Confined (Sound arch) OtherThanScalar (moveRow flag localRow row) := by
  refine Confined.view fun m _ => Confined.guard (fun _ _ he => nomatch he) fun _ => ?_
  split
  · exact confined_moveDramRow
  · exact confined_moveDramRow
  · exact confined_moveAccumulatorRow
  · exact confined_moveAccumulatorRow

theorem confined_moveRows {scratchpad address : StridedAddress} {i count : Nat} :
    Confined (Sound arch) OtherThanScalar (moveRows flag scratchpad address i count) := by
  induction count generalizing i with
  | zero => exact Confined.pure
  | succ count ih =>
    exact confined_address.bind fun _ => confined_address.bind fun _ =>
      confined_moveRow.bind fun _ => ih

theorem confined_execute (instr : Instruction) :
    Confined (Sound arch) OtherThanScalar (execute instr) := by
  cases instr with
  | noOp => exact Confined.pure
  | configure register value => exact Confined.update fun _ h => h.congr rfl rfl rfl
  | dataMove flag scratchpad address size => exact confined_moveRows
  | matMul | loadWeights => exact Confined.fail fun _ he => nomatch he

theorem confined_executeNext : Confined (Sound arch) OtherThanScalar executeNext := by
  refine Action.confined_iff.mpr fun m h => ?_
  rw [executeNext_run]
  cases m.device.queue with
  | nil => exact ⟨fun _ he => (nomatch he), h⟩
  | cons instr queue =>
    have hnext : (m.withQueue queue).Sound arch := h.congr rfl rfl rfl
    obtain ⟨hfault, hsound⟩ := Action.confined_iff.mp (confined_execute instr) _ hnext
    simp only
    rcases hr : (execute instr).run (m.withQueue queue) with ⟨fault | _, t⟩
    · rw [hr] at hfault hsound
      refine ⟨fun e he => ?_, hsound.congr rfl rfl rfl⟩
      rw [← Except.error.inj he]
      exact hfault fault rfl
    · rw [hr] at hsound
      exact ⟨fun _ he => (nomatch he), hsound.congr rfl rfl rfl⟩

theorem confined_step (limit : Option Nat) :
    Confined (Sound arch) OtherThanScalar (step limit) := by
  refine Confined.view fun m _ => ?_
  refine Confined.bind ?_ fun _ => Confined.pure
  induction m.stepCount limit with
  | zero => exact Confined.pure
  | succ count ih => exact confined_executeNext.bind fun _ => ih

/-- The machines of a unit that starts out new: instructions are queued and executed, the unit is
reset, and the host does to the memory what it likes. -/
inductive Reached (arch : Architecture) : Machine → Prop where
  | fresh (memory : Memory) : Reached arch ⟨.fresh arch, memory⟩
  | enqueue {m : Machine} (h : Reached arch m) (queued : List Instruction) :
    Reached arch { m with device := m.device.enqueue queued }
  | step {m : Machine} (h : Reached arch m) (limit : Option Nat) :
    Reached arch ((step limit).run m).2
  | reset {m : Machine} (h : Reached arch m) : Reached arch { m with device := m.device.reset }
  | host {m : Machine} (h : Reached arch m) (memory : Memory) : Reached arch { m with memory }

theorem Reached.sound {m : Machine} (h : Reached arch m) : m.Sound arch := by
  induction h with
  | fresh memory => exact Device.sound_fresh arch
  | enqueue h queued ih => exact ih.congr rfl rfl rfl
  | step h limit ih => exact (confined_step limit).keeps.state ih
  | reset h ih =>
    rw [Sound, Device.reset, ih.built]
    exact Device.sound_fresh arch
  | host h memory ih => exact ih

section Rows

variable {m : Machine} {k : Bank} {address : UInt64}

theorem moveRow_bank_run (hk : flag.remote = k.space) (h : m.Sound arch)
    (hl : localRow < arch.localDepth) :
    (moveRow flag localRow row).run m = (moveDramRow flag localRow row).run m := by
  rw [moveRow_run, h.built, if_pos hl, hk]
  cases k <;> rfl

theorem localRow_setLocalRow (h : m.Sound arch) (hl : localRow < arch.localDepth)
    (hn : values.length = arch.arraySize.toNat) :
    ((setLocalRow localRow values).run m).2.device.localRow localRow = values := by
  have hfit : localRow.toNat * arch.arraySize.toNat + values.length ≤ m.device.scratchpad.size := by
    rw [hn, h.scratchpad]
    exact Device.row_le_cells arch hl
  have hw := window_overwrite hfit
  rw [hn] at hw
  rw [setLocalRow_run, h.built, Device.localRow, Device.width]
  simp only [h.built]
  exact hw

theorem load_run (hk : flag.source = k.space) (h : m.Sound arch) (hl : localRow < arch.localDepth)
    (hr : row < arch.depth k.space) (ha : rowAddress? m.device k.space row = some address)
    {bytes : List UInt8} (hb : m.memory.readAt? address arch.rowBytes = some bytes) :
    ∃ t, (execute (.move flag localRow row 0)).run m = (.ok (), t) ∧ t.memory = m.memory ∧
      t.device.registers = m.device.registers ∧ t.Sound arch ∧
      t.device.localRow localRow = arch.dataType.ofBytes bytes := by
  obtain ⟨hremote, ht⟩ := Banks.remote_of_source hk
  have hn : (arch.dataType.ofBytes bytes).length = arch.arraySize.toNat := by
    rw [DataType.length_ofBytes, Memory.length_of_readAt? hb, Architecture.rowBytes,
      Nat.mul_div_cancel _ (scalarBytes_pos _)]
  have hset := localRow_setLocalRow h hl hn
  have hscalars : ∀ v ∈ arch.dataType.ofBytes bytes, arch.dataType.Holds v :=
    fun _ hv => DataType.holds_of_mem_ofBytes hv
  have hrun := setLocalRow_run localRow (arch.dataType.ofBytes bytes) m
  have hsound : Sound arch ((setLocalRow localRow (arch.dataType.ofBytes bytes)).run m).2 :=
    (confined_setLocalRow hscalars).keeps.state h
  refine ⟨((setLocalRow localRow (arch.dataType.ofBytes bytes)).run m).2, ?_, ?_, ?_, hsound, hset⟩
  · rw [execute_move, moveRow_bank_run hremote h hl, moveDramRow_run, h.built, hremote, if_pos hr,
      ha]
    simp only
    rw [if_pos ht, hb]
    simp only
    rw [hrun]
  · rw [hrun]
  · rw [hrun]

theorem store_run (hk : flag.destination = k.space) (h : m.Sound arch)
    (hl : localRow < arch.localDepth) (hr : row < arch.depth k.space)
    (ha : rowAddress? m.device k.space row = some address)
    (hm : (m.memory.regionAt? address arch.rowBytes).isSome) {bytes : List UInt8}
    (hb : arch.dataType.toBytes (m.device.localRow localRow) = .ok bytes) :
    (execute (.move flag localRow row 0)).run m =
      (.ok (), { m with memory := m.memory.writeAt address bytes }) := by
  obtain ⟨hremote, ht⟩ := Banks.remote_of_destination hk
  have hn : bytes.length = arch.rowBytes := by
    rw [DataType.length_toBytes hb, h.length_localRow hl, Architecture.rowBytes]
  rw [execute_move, moveRow_bank_run hremote h hl, moveDramRow_run, h.built, hremote, if_pos hr, ha]
  simp only
  rw [if_neg ht, hb]
  simp only
  rw [storeRow_run, if_pos (by rw [hn]; exact hm)]

end Rows

/-- Rows are rows of scalars: none is refused for its values, all of a kind are as long as each
other, and the bytes of a row come back as they were by way of the scratchpad. -/
structure Representable (arch : Architecture) (m : Machine) : Prop where
  sound : m.device.Sound arch
  faults : ∀ limit fault t, (step limit).run m = (.error fault, t) → OtherThanScalar fault
  stored : ∀ row < arch.localDepth, ∃ bytes,
    arch.dataType.toBytes (m.device.localRow row) = .ok bytes ∧ bytes.length = arch.rowBytes
  loaded : ∀ address bytes, m.memory.readAt? address arch.rowBytes = some bytes →
    (arch.dataType.ofBytes bytes).length = arch.arraySize.toNat
  localRows : ∀ row < arch.localDepth, (m.device.localRow row).length = arch.arraySize.toNat
  accumulatorRows : ∀ row < arch.accumulatorDepth,
    (m.device.accumulatorRow row).length = arch.arraySize.toNat
  returns : ∀ (source target : Bank) (load store : MoveFlag) localRow row row' address address'
    bytes, load.source = source.space → store.destination = target.space →
    localRow < arch.localDepth → row < arch.depth source.space → row' < arch.depth target.space →
    rowAddress? m.device source.space row = some address →
    rowAddress? m.device target.space row' = some address' →
    m.memory.readAt? address arch.rowBytes = some bytes →
    (m.memory.readAt? address' arch.rowBytes).isSome →
    ∃ t, (executeAll [.move load localRow row 0, .move store localRow row' 0]).run m = (.ok (), t) ∧
      t.memory.readAt? address' arch.rowBytes = some bytes

/-- Whatever has been done with a unit, its rows are rows of scalars. -/
theorem Reached.rows_representable {m : Machine} (h : Reached arch m) : Representable arch m := by
  have hs := h.sound
  refine ⟨hs, fun limit fault t hr => ?_, fun row hl => hs.toBytes_localRow hl,
    fun address bytes hb => ?_, fun row hl => hs.length_localRow hl,
    fun row hr => hs.length_accumulatorRow hr, ?_⟩
  · exact ((confined_step limit).failure m fault t hs hr).1
  · rw [DataType.length_ofBytes, Memory.length_of_readAt? hb, Architecture.rowBytes,
      Nat.mul_div_cancel _ (scalarBytes_pos _)]
  · intro source target load store localRow row row' address address' bytes hload hstore hl hr hr'
      ha ha' hb hmapped
    have hn := Memory.length_of_readAt? hb
    have hwhole : bytes.length % arch.dataType.scalarBytes = 0 := by
      rw [hn, Architecture.rowBytes, Nat.mul_mod_left]
    obtain ⟨t, hrun, hmemory, hregisters, hsound, hrow⟩ := load_run hload hs hl hr ha hb
    have ha' : rowAddress? t.device target.space row' = some address' := by
      rw [← ha', rowAddress?, rowAddress?, Device.register, Device.register, hregisters,
        hsound.built, hs.built]
    have hregion : (t.memory.regionAt? address' arch.rowBytes).isSome := by
      rw [hmemory]
      rwa [Memory.readAt?, Option.isSome_map] at hmapped
    have hbytes : arch.dataType.toBytes (t.device.localRow localRow) = .ok bytes := by
      rw [hrow, DataType.toBytes_ofBytes hwhole]
    refine ⟨{ t with memory := t.memory.writeAt address' bytes }, ?_, ?_⟩
    · rw [executeAll, Action.bind_run, hrun]
      simp only
      rw [executeAll, Action.bind_run, store_run hstore hsound hl hr' ha' hregion hbytes]
      rfl
    · rw [← hn]
      exact Memory.readAt?_writeAt (by rw [hn]; exact hregion)

def doubled : Machine :=
  ((step none).run {
    device := (Device.fresh tinyArch).enqueue
      [.move .dram0ToLocal 0 0 0, .move .localToAccumulatorAccumulate 0 0 0,
        .move .localToAccumulatorAccumulate 0 0 0]
    memory := ⟨[("a", ⟨0, ⟨#[255, 127]⟩⟩)], 65536⟩ }).2

theorem rows_representable_doubled : Reached tinyArch doubled ∧
    doubled.device.accumulatorRow 0 = [32767] ∧ Representable tinyArch doubled := by
  have hreached : Reached tinyArch doubled := .step (.enqueue (.fresh _) _) none
  exact ⟨hreached, by decide +kernel, hreached.rows_representable⟩

end Machine

end TensorUnit.Sim
