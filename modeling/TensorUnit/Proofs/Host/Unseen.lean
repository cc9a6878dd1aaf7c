import TensorUnit.Proofs.Host.Refinement
import TensorUnit.Proofs.Sim.Rows

namespace TensorUnit.Host

open TensorUnit.Action (Triple Keeps)
open Remote Sim
open Tcu (Instruction)

namespace Driver

variable (d : Driver)

def place (k : Nat) : Nat :=
  d.target.toNat * d.arch.rowBytes + k * d.arch.dataType.scalarBytes

def Misses (k : Nat) (device : Device) : Prop :=
  ∀ address, Machine.rowAddress? device .dram0 d.target = some address →
    address.toNat + d.arch.rowBytes ≤ (d.banks.extent .dram0).base + d.place k ∨
      (d.banks.extent .dram0).base + d.place k + d.arch.dataType.scalarBytes ≤ address.toNat

/-- A scalar of the target row is zero, and nothing that is queued changes that. -/
structure Unseen (k : Nat) (m : Machine) : Prop where
  hold : d.banks.Hold m
  misses : d.Misses k m.device
  queued : ∀ instr ∈ m.device.queue, instr = d.carry ∨ Fetches (fun _ => True) instr
  zero : ∀ i, d.place k ≤ i → i < d.place k + d.arch.dataType.scalarBytes →
    (d.banks.contents m .dram0)[i]? = some 0

variable {d} {k : Nat} {m t : Machine} {instr : Instruction}

theorem Unseen.probing (h : d.Unseen k m) (generation : Nat) (outstanding : Bool) :
    (d.probing generation outstanding).Unseen k m :=
  ⟨h.hold, h.misses, h.queued, h.zero⟩

theorem scalarBytes_le_blockBytes (dt : DataType) : dt.scalarBytes ≤ blockBytes.toNat := by
  cases dt <;> decide

theorem place_add_le (hk : k < d.arch.arraySize.toNat) :
    d.place k + d.arch.dataType.scalarBytes ≤
      d.target.toNat * d.arch.rowBytes + d.arch.rowBytes := by
  have hm := Nat.mul_le_mul_right d.arch.dataType.scalarBytes (Nat.succ_le_of_lt hk)
  rw [Nat.succ_mul] at hm
  rw [place, Architecture.rowBytes]
  omega

/-- A unit that looks for DRAM0 behind it misses the first scalar of the target row, and one that
looks before it the last. -/
theorem exists_misses (hd : d.Sound) (h : d.banks.Hold m)
    (hl : ¬ d.banks.Finds m.device .dram0) :
    ∃ k < d.arch.arraySize.toNat, d.Misses k m.device := by
  have hscalar := scalarBytes_le_blockBytes d.arch.dataType
  have hpos := hd.arraySize_pos
  have hne : (m.device.register .dram0AddressOffset).toNat ≠ (d.banks.offset .dram0).toNat :=
    fun he => hl (UInt64.toNat_inj.mp he)
  have harch : m.device.arch = d.arch := h.arch
  have haddress : ∀ address, Machine.rowAddress? m.device .dram0 d.target = some address →
      (m.device.register .dram0AddressOffset).toNat * blockBytes.toNat +
        d.target.toNat * d.arch.rowBytes = address.toNat := by
    intro address ha
    rw [← harch]
    exact Exact.ofNat?_eq_some_iff.mp ha
  -- a block is no shorter than a scalar, so a row that is blocks away misses one end of the target
  rcases Nat.lt_or_gt_of_ne hne with hlt | hgt
  · refine ⟨d.arch.arraySize.toNat - 1, by omega, fun address ha => .inl ?_⟩
    have hrow : (d.arch.arraySize.toNat - 1) * d.arch.dataType.scalarBytes +
        d.arch.dataType.scalarBytes = d.arch.rowBytes := by
      rw [← Nat.succ_mul, Nat.succ_eq_add_one, Nat.sub_add_cancel hpos]
      rfl
    have hblock := Nat.mul_le_mul_right blockBytes.toNat (Nat.succ_le_of_lt hlt)
    rw [Nat.succ_mul] at hblock
    have hbase := haddress address ha
    simp only [Banks.extent, place]
    omega
  · refine ⟨0, hpos, fun address ha => .inr ?_⟩
    have hblock := Nat.mul_le_mul_right blockBytes.toNat (Nat.succ_le_of_lt hgt)
    rw [Nat.succ_mul] at hblock
    have hbase := haddress address ha
    simp only [Banks.extent, place]
    omega

theorem Misses.congr (h : d.Misses k m.device) (ha : t.device.arch = m.device.arch)
    (hr : t.device.registers = m.device.registers) : d.Misses k t.device := by
  intro address he
  refine h address ?_
  rwa [Machine.rowAddress?, Device.register, ha, hr] at he

section Step

variable (hd : d.Sound)
include hd

theorem Unseen.executed (h : d.Unseen k m) (hi : instr = d.carry ∨ Fetches (fun _ => True) instr) :
    ((Machine.execute instr).run m).2.device.registers = m.device.registers ∧
      ∀ i, d.place k ≤ i → i < d.place k + d.arch.dataType.scalarBytes →
        (d.banks.contents ((Machine.execute instr).run m).2 .dram0)[i]? =
          (d.banks.contents m .dram0)[i]? := by
  rcases hi with rfl | hfetch
  · have hstored : d.banks.Stored .dram0 d.target m ((Machine.execute d.carry).run m).2 :=
      h.hold.execute_store rfl (by decide)
    rcases hstored with he | ⟨address, bytes, ha, hn, hs, he⟩
    · rw [he]
      exact ⟨rfl, fun _ _ _ => rfl⟩
    · rw [he]
      refine ⟨rfl, fun i hlo hhi => ?_⟩
      have hpos : 0 < bytes.length := hn ▸ hd.fit.rowBytes
      have hlen : bytes.length = d.arch.rowBytes := hn
      have haside := h.misses address ha
      exact h.hold.apart.getElem?_bytes_writeAt (h.hold.extents .dram0) hpos hs (by omega)
  · refine ⟨(h.hold.refilled_of_fetches hfetch).registers, fun i _ _ => ?_⟩
    rw [Banks.contents, hfetch.memory]
    rfl

theorem Unseen.next (h : d.Unseen k m) {queue : List Instruction}
    (hq : m.device.queue = instr :: queue) :
    d.Unseen k ((Machine.execute instr).run (m.withQueue queue)).2 := by
  have hrest : d.Unseen k (m.withQueue queue) :=
    ⟨⟨h.hold.arch, h.hold.cells, h.hold.apart, h.hold.extents⟩, h.misses,
      fun i hi => h.queued i (hq ▸ List.mem_cons_of_mem _ hi), h.zero⟩
  have hkept := Machine.kept_execute instr (m.withQueue queue)
  obtain ⟨hregisters, hcontents⟩ := hrest.executed hd (h.queued instr (by simp [hq]))
  refine ⟨hrest.hold.of_kept hkept, hrest.misses.congr hkept.arch hregisters, ?_, ?_⟩
  · rw [hkept.queue]
    exact hrest.queued
  · exact fun i hlo hhi => (hcontents i hlo hhi).trans (hrest.zero i hlo hhi)

theorem keeps_unseen : Keeps (d.Unseen k) Machine.executeNext := by
  apply Machine.triple_executeNext
  · exact fun _ h _ => h
  · intro m instr queue t h hq hr
    obtain ⟨hold, misses, queued, zero⟩ := hr ▸ h.next hd hq
    exact ⟨⟨hold.arch, hold.cells, hold.apart, hold.extents⟩, misses, queued, zero⟩
  · intro m instr queue f t h hq hr
    obtain ⟨hold, misses, _, zero⟩ := hr ▸ h.next hd hq
    exact ⟨⟨hold.arch, hold.cells, hold.apart, hold.extents⟩, misses, fun _ hi => (nomatch hi),
      zero⟩

end Step

def Blank (d : Driver) (k n : Nat) (bytes : List UInt8) : Prop :=
  bytes.length = n ∧ ∀ i x, k * d.arch.dataType.scalarBytes ≤ i →
    i < k * d.arch.dataType.scalarBytes + d.arch.dataType.scalarBytes → bytes[i]? = some x → x = 0

variable {start length n : Nat} {bytes : List UInt8}

theorem blank_nil : d.Blank k 0 [] :=
  ⟨rfl, fun _ _ _ _ h => nomatch h⟩

theorem Unseen.blank (hd : d.Sound) (h : d.Unseen k m) (hw : start + length ≤ d.arch.rowBytes)
    (hb : d.Blank k start bytes) :
    d.Blank k (start + length) (bytes ++ ((d.banks.contents m .dram0).drop
      (d.target.toNat * d.arch.rowBytes + start)).take length) := by
  have hrow := hd.fit.row_le (hd.row_lt (n := 2) (by decide) (by decide))
  have hlen := h.hold.length_contents .dram0
  have htarget : d.target = d.arch.dram0Depth - 2 := congrArg RowAddress.val hd.target
  rw [← htarget] at hrow
  change d.target.toNat * d.arch.rowBytes + d.arch.rowBytes ≤ _ at hrow
  obtain ⟨hn, hz⟩ := hb
  refine ⟨?_, fun i x hlo hhi hx => ?_⟩
  · rw [List.length_append, List.length_take, List.length_drop, hn]
    omega
  · by_cases hi : i < bytes.length
    · rw [List.getElem?_append_left hi] at hx
      exact hz i x hlo hhi hx
    · rw [List.getElem?_append_right (Nat.le_of_not_lt hi), List.getElem?_take] at hx
      split at hx
      · rw [List.getElem?_drop] at hx
        have hzero := h.zero (d.target.toNat * d.arch.rowBytes + i)
          (by rw [place]; omega) (by rw [place]; omega)
        rw [show d.target.toNat * d.arch.rowBytes + start + (i - bytes.length) =
          d.target.toNat * d.arch.rowBytes + i by omega, hzero] at hx
        exact (Option.some.inj hx).symm
      · cases hx

theorem Blank.zero_mem (h : d.Blank k d.arch.rowBytes bytes) (hk : k < d.arch.arraySize.toNat) :
    0 ∈ d.arch.dataType.ofBytes bytes := by
  obtain ⟨hn, hz⟩ := h
  refine List.mem_map.mpr ⟨(bytes.drop (k * d.arch.dataType.scalarBytes)).take
    d.arch.dataType.scalarBytes, ?_, ?_⟩
  · rw [Bytes.words, Bytes.pieces_eq, hn, Architecture.rowBytes,
      Nat.mul_div_cancel _ (scalarBytes_pos _)]
    exact List.mem_map.mpr ⟨k, List.mem_range.mpr hk, rfl⟩
  · rw [toNat_zero, ofPattern_zero]
    intro x hx
    obtain ⟨i, hi⟩ := List.mem_iff_getElem?.mp hx
    rw [List.getElem?_take] at hi
    split at hi
    · rw [List.getElem?_drop] at hi
      exact hz _ x (Nat.le_add_right ..) (by omega) hi
    · cases hi

end Driver

section Polls

variable {d : Driver} (hd : d.Sound) {k : Nat} (hk : k < d.arch.arraySize.toNat)
include hd hk

theorem triple_read_unseen {address : ScalarAddress}
    (ha : address.val.toNat * d.arch.units.scalarBytes.toNat =
      d.target.toNat * d.arch.rowBytes) :
    Triple (Sim.On d.layout (d.Unseen k)) ((d.mem .dram0).read address d.arch.arraySize)
      (fun values => Sim.On d.layout fun m => 0 ∈ values ∧ d.Unseen k m)
      (Sim.On d.layout (d.Unseen k)) := by
  rw [hd.mem .dram0]
  refine (Mem.triple_decoded (F := Sim.On d.layout (d.Unseen k)) (Q := fun pieces w =>
    d.Blank k d.arch.rowBytes pieces.flatten ∧ Sim.On d.layout (d.Unseen k) w)
    (units_pos d.arch) (fun _ h => h) fun offset size ho hfit hpos _ => ?_).relax ?_
  · rw [rowBytes_units] at hfit ⊢
    refine triple_assembled hpos (fun start length bytes _ hw hread => ?_) 0 _
      (Nat.zero_add _) ?_
    · refine (triple_readWindow (P := d.Unseen k) (E := d.Unseen k)
        (R := fun piece m => d.Blank k (start + length) (bytes ++ piece) ∧ d.Unseen k m)
        (by omega) (fun m hm => ⟨?_, hm⟩) (fun piece => ?_) fun _ h => h).relax
        fun _ _ h => h.of_and
      · rw [← ho, ha]
        exact hm.blank hd hw hread
      · exact Triple.assume fun hb => (Driver.keeps_unseen hd).relax fun _ _ h => ⟨hb, h⟩
    · rw [Nat.zero_mul, Nat.zero_min]
      exact Driver.blank_nil
  · rintro values w ⟨pieces, rfl, hb, hw⟩
    exact hw.mono fun m hm => ⟨hb.zero_mem hk, hm⟩

theorem triple_isObserved_unseen :
    Triple (Probing.On d (d.Unseen k)) (Probing.isObserved (d.mem .dram0))
      (fun seen s => seen = false ∧ Probing.On d (d.Unseen k) s)
      (Probing.On d (d.Unseen k)) := by
  refine (Probing.triple_looks hd (fun _ h => h) fun address ha =>
    triple_read_unseen hd hk ha).relax fun seen s hs => ?_
  obtain ⟨values, hseen, hzero, hm⟩ := hs.remote.remote.machine
  refine ⟨Bool.eq_false_iff.mpr fun ht => ?_, hs.probe, hs.remote.plan, hs.remote.remote.layout, hm⟩
  rw [hseen ht] at hzero
  exact absurd (List.mem_replicate.mp hzero).2 (Int.ne_of_lt (Probe.stamp_pos d.probe))

theorem triple_poll_unseen (polls more : Nat) :
    Triple (Probing.On d (d.Unseen k)) (Probing.poll (d.mem .dram0) polls more)
      (fun _ _ => False) fun _ => True := by
  induction more generalizing polls with
  | zero => exact Triple.fail fun _ _ => trivial
  | succ more ih =>
    refine ((triple_isObserved_unseen hd hk).weaken (fun _ h => h) (fun _ _ h => h)
      fun _ _ => trivial).bind fun seen => Triple.assume fun hs => ?_
    subst hs
    exact ih (polls + 1)

theorem triple_wait_unseen (policy : FlushPolicy) :
    Triple (Probing.On d (d.Unseen k)) (Probing.wait (d.mem .dram0) policy)
      (fun _ _ => False) fun _ => True := by
  let e := d.probing d.probe.generation true
  refine Triple.bind (Q := fun _ => Probing.On e (e.Unseen k)) (Triple.update fun s hs =>
    ⟨?_, hs.remote.mono fun _ hm => hm.probing ..⟩) fun _ => ?_
  · change { s.probe with outstanding := true } = _
    rw [hs.probe]
    rfl
  · exact Triple.viewed fun _ => triple_poll_unseen (d := e) (hd.probing ..) hk 0 _

end Polls

section Streams

variable {d : Driver} (hd : d.Sound) {s : Machine} (hs : d.banks.Hold s)
  (hq : s.device.queue = []) (hl : ¬ d.banks.Finds s.device .dram0)
include hd hs hq hl

/-- A stream that only loads rows is not waited for with success by a unit that does not find DRAM0,
be it empty. -/
theorem triple_executeStream_unseen {stream : List UInt8}
    (hstream : ∀ program, Simulator.instructions d.layout stream = .ok program →
      ∀ instr ∈ program, Fetches (fun _ => True) instr) :
    Triple (Driving.On d (Still d.banks s)) (Driving.executeStream stream) (fun _ _ => False)
      fun _ => True := by
  obtain ⟨k, hk, hmisses⟩ := Driver.exists_misses hd hs hl
  let e := d.probing d.probe.generation false
  have he : e.Sound := hd.probing ..
  refine triple_executeStream_idle (S := d.Unseen k) hd hs hq (fun probe hm hp => ?_) ?_
  · refine submits_armed (d := e) he hq (fun _ h => h.hold) ?_ ?_ ?_
    · intro m memory h ha hb
      refine ⟨h.hold.beside hd.staging ha hb, h.misses, h.queued, fun i hlo hhi => ?_⟩
      exact (congrArg (·[i]?) (hb.bytes (hd.staging .dram0))).trans (h.zero i hlo hhi)
    · intro m queued h hi
      obtain ⟨program, hprogram, rfl⟩ := instructions_probe he hm hp hi
      have hqueue : m.device.queue = [] := by
        rw [h.device]
        exact hq
      refine ⟨⟨h.hold.arch, h.hold.cells, h.hold.apart, h.hold.extents⟩, ?_, ?_, ?_⟩
      · exact hmisses.congr (t := m) (by rw [h.device]; rfl) (by rw [h.device]; rfl)
      · intro instr hi
        rw [Device.enqueue, hqueue, List.nil_append] at hi
        rcases List.mem_append.mp hi with hi | hi
        · exact .inr (hstream program hprogram instr hi)
        · rcases List.mem_cons.mp hi with rfl | hi
          · exact .inr (fetches_move (k := .dram0) rfl rfl fun _ _ _ => trivial)
          · exact .inl (List.mem_singleton.mp hi)
      · intro i hlo hhi
        have hplace := Driver.place_add_le hk
        have hcleared := Driver.cleared_armed (d := e) he hs i
          (Nat.le_trans (Nat.le_add_right ..) hlo) (Nat.lt_of_lt_of_le hhi hplace)
        exact (congrArg (·[i]?) (h.contents .dram0)).trans hcleared
    · exact (Driver.keeps_unseen hd).weaken (fun _ h => h) (fun _ _ h => h) fun _ h => h.hold
  · have hwait := triple_wait_unseen (d := e.next) (he.probing ..) hk d.config.flush
    exact (Driving.triple_onProbe hwait).weaken (fun _ h => h.mono fun _ hm => hm.1.probing ..)
      (fun _ _ h => h.choose_spec.2) fun _ _ => trivial

theorem triple_executeProgram_unseen {program : List Instruction}
    (hp : ∀ instr ∈ program, Fetches (fun _ => True) instr) :
    Triple (Driving.On d (Still d.banks s)) (Driving.executeProgram program) (fun _ _ => False)
      fun _ => True := by
  refine Driving.triple_executeProgram (fun _ _ => trivial) fun stream hstream =>
    triple_executeStream_unseen hd hs hq hl fun queued hqueued => ?_
  cases hqueued.symm.trans (Simulator.instructions_assemble hd.whole hstream).1
  exact hp

end Streams

theorem Driving.Held.finds {h h' : Driving (Switch Simulator)} (hh : h.Held)
    (hq : h.device.queue = []) {program : List Instruction}
    (hp : ∀ instr ∈ program, Fetches (fun _ => True) instr) {polls : Nat}
    (hrun : (Driving.executeProgram program).run h = (.ok polls, h')) :
    h.driver.banks.Finds h.device .dram0 := by
  obtain ⟨hd, hon⟩ := hh
  have hold : h.driver.banks.Hold h.machine := hon.remote.remote.machine
  have hstill : Driving.On h.driver (Still h.driver.banks h.machine) h :=
    ⟨rfl, hon.remote.plan, hon.remote.remote.layout, hold, rfl, fun _ => rfl⟩
  by_contra hl
  exact (triple_executeProgram_unseen hd hold hq hl hp).ok hstill hrun

end TensorUnit.Host
