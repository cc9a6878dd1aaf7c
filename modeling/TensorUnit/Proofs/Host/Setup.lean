import TensorUnit.Proofs.Host.Flush

namespace TensorUnit.Host

open TensorUnit.Action (Triple Keeps)
open Remote Sim
open Tcu (Instruction)

def Blank (arch : Architecture) (m : Machine) : Prop :=
  m.device = Device.fresh arch ∧ m.memory.Apart ∧ m.memory.regions = []

theorem blank_ofArchitecture {arch : Architecture} {config : Sim.Config} {sim : Simulator}
    (h : Simulator.ofArchitecture arch config = .ok sim) :
    Simulator.At (Tcu.Layout.ofDepths arch) (Blank arch) sim := by
  obtain ⟨layout, hl, h⟩ := exists_of_bind_ok h
  obtain ⟨memory, hm, h⟩ := exists_of_bind_ok h
  obtain ⟨device, hd, h⟩ := exists_of_bind_ok h
  cases h
  obtain ⟨hapart, hregions⟩ := Memory.apart_startingAt hm
  unfold Device.ofArchitecture at hd
  split at hd
  · cases hd
    exact ⟨(Tcu.Layout.ofArchitecture_eq_ok hl).2, rfl, hapart, hregions⟩
  · cases hd

structure HalfAllocated (arch : Architecture) (config : Config) (size first : UInt64)
    (m : Machine) : Prop where
  device : m.device = Device.fresh arch
  apart : m.memory.Apart
  dram0 : m.memory.region? config.dram0Buffer = some ⟨first, zeroBytes size.toNat⟩
  other : ∀ name, name ≠ config.dram0Buffer → m.memory.region? name = none

/-- The two buffers of a driver, and no other. -/
structure Allocated (arch : Architecture) (config : Config) (size first second : UInt64)
    (m : Machine) : Prop where
  device : m.device = Device.fresh arch
  apart : m.memory.Apart
  dram0 : m.memory.region? config.dram0Buffer = some ⟨first, zeroBytes size.toNat⟩
  dram1 : m.memory.region? config.dram1Buffer = some ⟨second, zeroBytes size.toNat⟩
  other : ∀ name, name ≠ config.dram0Buffer → name ≠ config.dram1Buffer →
    m.memory.region? name = none

section Allocate

variable {arch : Architecture} {layout : Tcu.Layout} {config : Config} {size first second : UInt64}
  {m : Machine} {memory : Memory}

theorem Blank.alloc (h : Blank arch m)
    (ha : m.memory.alloc config.dram0Buffer size = .ok (first, memory)) :
    HalfAllocated arch config size first { m with memory } := by
  obtain ⟨hd, hapart, hr⟩ := h
  refine ⟨hd, (hapart.alloc ha).1, ?_, fun name hn => ?_⟩
  · rw [Memory.region?_alloc ha, if_pos rfl]
  · change memory.region? name = none
    rw [Memory.region?_alloc ha, if_neg hn, Memory.region?, hr, List.lookup_nil]

theorem HalfAllocated.alloc (h : HalfAllocated arch config size first m)
    (ha : m.memory.alloc config.dram1Buffer size = .ok (second, memory)) :
    Allocated arch config size first second { m with memory } := by
  have hne : config.dram0Buffer ≠ config.dram1Buffer := by
    intro he
    have hnone := Memory.region?_eq_none_of_alloc ha
    rw [← he, h.dram0] at hnone
    cases hnone
  refine ⟨h.device, (h.apart.alloc ha).1, ?_, ?_, fun name hn0 hn1 => ?_⟩
  · rw [Memory.region?_alloc ha, if_neg hne, h.dram0]
  · rw [Memory.region?_alloc ha, if_pos rfl]
  · change memory.region? name = none
    rw [Memory.region?_alloc ha, if_neg hn1, h.other name hn0]

theorem triple_allocateBatch (size : UInt64) :
    Triple (Sim.On layout (Blank arch))
      (execute [.bufferAlloc config.dram0Buffer size, .bufferAlloc config.dram1Buffer size,
        .dmaAlloc config.dmaChannel] : Action (Switch Simulator) RemoteError _)
      (fun rs => Sim.On layout fun m => ∃ first second, rs = [.address first, .address second] ∧
        Allocated arch config size first second m)
      (Sim.On layout fun _ => True) := by
  have htrue : ∀ {P : Machine → Prop} m, P m → True := fun _ _ => trivial
  refine Sim.On.triple_send (Simulator.triple_execute (R := fun rs m => ∃ first second,
    rs = [Response.address first, Response.address second] ∧
      Allocated arch config size first second m) ?_ (fun rs => ?_) htrue) htrue
  · refine Simulator.triple_applyAll_cons (Simulator.triple_apply_alloc
      (R := fun first m => HalfAllocated arch config size first m) htrue
      fun m first memory => Blank.alloc) fun rs => ?_
    refine Triple.strengthen (Triple.exists fun first => Triple.assume fun hrs => ?_)
      fun s hs => (Simulator.At.exists hs).imp fun first h => h.of_and
    subst hrs
    refine Simulator.triple_applyAll_cons (Simulator.triple_apply_alloc
      (R := fun second m => Allocated arch config size first second m) htrue
      fun m second memory => HalfAllocated.alloc) fun rs => ?_
    refine Triple.strengthen (Triple.exists fun second => Triple.assume fun hrs => ?_)
      fun s hs => (Simulator.At.exists hs).imp fun second h => h.of_and
    subst hrs
    refine (Simulator.triple_applyAll_singleton Simulator.triple_apply_open).relax fun rs s hs =>
      hs.mono ?_
    rintro m ⟨rfl, h⟩
    exact ⟨first, second, rfl, h⟩
  · apply Banks.triple_idle
    rintro m ⟨first, second, _, h⟩
    rw [h.device]
    rfl

theorem triple_allocate (size : UInt64) :
    Triple (Sim.On layout (Blank arch)) (Driver.allocate config size)
      (fun p => Sim.On layout (Allocated arch config size p.1 p.2)) fun _ => True := by
  refine Triple.bind (Triple.attempt (F := fun _ => True) (triple_allocateBatch size))
    fun outcome => ?_
  cases outcome with
  | error e =>
    refine Triple.bind (Q := fun _ _ => True) ?_ fun _ => Triple.fail fun _ _ => trivial
    exact fun _ _ => trivial
  | ok rs =>
    refine Triple.strengthen (P := fun w => ∃ first second, rs = [.address first, .address second] ∧
      Sim.On layout (Allocated arch config size first second) w) ?_ ?_
    · refine Triple.exists fun first => Triple.exists fun second => Triple.assume fun hrs => ?_
      subst hrs
      exact Triple.pure fun _ h => h
    · intro w hw
      obtain ⟨hplan, hl, first, second, hrs, h⟩ := hw.1 rs rfl
      exact ⟨first, second, hrs, hplan, hl, h⟩

end Allocate

theorem Config.names_ne {c : Config} {limit : Nat} (h : c.validate limit = .ok ()) :
    c.dram0Buffer ≠ c.dram1Buffer ∧ c.dram0Buffer ≠ c.stagingBuffer ∧
      c.dram1Buffer ≠ c.stagingBuffer := by
  have hr : Config.repeated? [c.dram0Buffer, c.dram1Buffer, c.stagingBuffer] = none := by
    unfold Config.validate at h
    split at h
    · cases h
    · rename_i hf
      unfold Config.fault? at hf
      split at hf
      · cases hf
      · split at hf
        · cases hf
        · assumption
  unfold Config.repeated? Config.repeated? at hr
  split at hr
  · cases hr
  · split at hr
    · cases hr
    · simp_all

theorem Driver.bufferSize_eq_ok {arch : Architecture} {size : UInt64}
    (h : bufferSize arch = .ok size) :
    (max arch.dram0Depth arch.dram1Depth).toNat * arch.rowBytes = size.toNat := by
  obtain ⟨rowBytes, hr, h⟩ := exists_of_bind_ok h
  have hr : arch.rowBytes = rowBytes.toNat := by
    cases hb : arch.rowBytes? with
    | none => rw [hb] at hr; cases hr
    | some bytes =>
      rw [hb] at hr
      cases hr
      exact Exact.ofNat?_eq_some_iff.mp hb
  split at h
  · cases h
    rw [hr]
    exact Exact.mul?_eq_some_iff.mp ‹_›
  · cases h

theorem Driver.rows_le_bufferSize {arch : Architecture} {size : UInt64}
    (h : bufferSize arch = .ok size) (k : Bank) :
    (arch.depth k.space).toNat * arch.rowBytes ≤ size.toNat := by
  have hmax : (arch.depth k.space).toNat ≤ (max arch.dram0Depth arch.dram1Depth).toNat := by
    rw [Memory.toNat_max]
    cases k
    · exact Nat.le_max_left ..
    · exact Nat.le_max_right ..
  rw [← bufferSize_eq_ok h]
  exact Nat.mul_le_mul_right _ hmax

theorem Probe.ofArchitecture_eq_ok {arch : Architecture} {probe : Probe}
    (h : Probe.ofArchitecture arch = .ok probe) :
    2 ≤ arch.dram0Depth.toNat ∧ probe.source = ⟨arch.dram0Depth - 1⟩ ∧
      probe.target = ⟨arch.dram0Depth - 2⟩ ∧ probe.scratchpad = ⟨arch.localDepth - 1⟩ ∧
      probe.arraySize = arch.arraySize ∧ probe.maxRaw = arch.dataType.maxRaw ∧
      probe.outstanding = false := by
  unfold Probe.ofArchitecture at h
  split at h
  · cases h
  · rename_i hd
    cases h
    refine ⟨?_, rfl, rfl, rfl, rfl, rfl, rfl⟩
    exact UInt64.le_iff_toNat_le.mp (UInt64.not_lt.mp fun hlt => hd (.inl hlt))

def Driver.unconfigured (arch : Architecture) (config : Config) (probe : Probe)
    (size first second : UInt64) : Driver where
  arch
  layout := Tcu.Layout.ofDepths arch
  config
  dram0 := ⟨config.dram0Buffer, arch.dataType, arch.units, size, config.chunkSize.toNat⟩
  dram1 := ⟨config.dram1Buffer, arch.dataType, arch.units, size, config.chunkSize.toNat⟩
  probe
  offsets := ⟨blocksFor first, blocksFor second⟩
  closed := false
  loaded := none

section Unconfigured

variable {arch : Architecture} {config : Config} {probe : Probe} {size first second : UInt64}

theorem Driver.sound_unconfigured (first second : UInt64) {limit : Nat}
    (hv : arch.validate = .ok ())
    (hp : Probe.ofArchitecture arch = .ok probe) (hc : config.validate limit = .ok ())
    (hs : Driver.bufferSize arch = .ok size) :
    (Driver.unconfigured arch config probe size first second).Sound := by
  obtain ⟨hdepth, hsource, htarget, hscratchpad, harray, hraw, _⟩ := Probe.ofArchitecture_eq_ok hp
  obtain ⟨hname, hstaging0, hstaging1⟩ := Config.names_ne hc
  refine ⟨⟨hname, ?_, Driver.rows_le_bufferSize hs⟩, rfl, fun k => ?_, fun k => ?_, hdepth,
    hsource, htarget, hscratchpad, harray, hraw⟩
  · exact Nat.mul_pos (Architecture.arraySize_pos hv) (scalarBytes_pos _)
  · cases k
    · exact hstaging0
    · exact hstaging1
  · cases k <;> rfl

theorem Allocated.hold {m : Machine} (h : Allocated arch config size first second m) :
    (Driver.unconfigured arch config probe size first second).banks.Hold m := by
  have hextent : ∀ name base, m.memory.region? name = some ⟨base, zeroBytes size.toNat⟩ →
      (⟨name, (blocksFor base).toNat * blockBytes.toNat, size.toNat⟩ : Extent) ∈
        m.memory.extents := by
    intro name base hr
    have hm : Extent.of (name, ⟨base, zeroBytes size.toNat⟩) ∈ m.memory.extents :=
      List.mem_map_of_mem (Memory.mem_regions hr)
    have hbase := (Memory.blocksFor_spec base).2 (h.apart.below _ hm).2
    have hsize : (zeroBytes size.toNat).size = size.toNat := Array.size_replicate
    rw [Extent.of, hsize] at hm
    rwa [hbase]
  refine ⟨?_, ?_, h.apart, fun k => ?_⟩
  · rw [h.device]
    rfl
  · rw [h.device]
    exact Array.size_replicate
  · cases k
    · exact hextent _ _ h.dram0
    · exact hextent _ _ h.dram1

end Unconfigured

section New

variable {arch : Architecture} {config : Config}

theorem ready_registers {d : Driver} {m : Machine} (hold : d.banks.Hold m)
    (hq : m.device.queue = []) :
    d.banks.Ready { m with
      device := m.device.enqueue
        (d.registers.map (fun r => .configure r.1 r.2) ++ d.probe.instructions) } := by
  refine ⟨⟨hold.arch, hold.cells, hold.apart, hold.extents⟩, d.registers, d.probe.instructions,
    ?_, fun k => ?_, not_configuresBank_probe⟩
  · rw [Device.enqueue, hq, List.nil_append]
  · cases k <;> rfl

theorem configureNew_run {σ : Type} [Service σ] (d : Driver) (remote : σ) :
    d.configureNew.run remote =
      match (Driving.configure d.registers).run ⟨d, remote⟩ with
      | (.ok _, h) => (.ok h.driver, h.remote)
      | (.error e, h) => (.error e, (Driving.close.run h).2.remote) :=
  rfl

theorem triple_configureNew {d : Driver} (hd : d.Sound) :
    Triple (Sim.On d.layout fun m => (d.banks.Hold m ∧ m.device.queue = []) ∧
        d.Unless false (fun m => d.Tail m ∧ Counts 0 m) m)
      d.configureNew
      (fun d' w => ∃ generation, Driving.On (d.probing generation false) (fun m =>
        d.banks.Ready m ∧ d.Unless false (fun m => m.device.queue = []) m) ⟨d', w⟩)
      (fun _ => True) := by
  have hidle : d.banks.Steady (fun m => d.banks.Hold m ∧ m.device.queue = []) fun m =>
      (d.banks.Hold m ∧ m.device.queue = []) ∨ d.banks.Ready m :=
    Banks.steady_idle (fun m h => h.1) (fun m h => h.2) fun m h => .inl h
  have hready := (Banks.steady_ready hd.fit).mono (G := fun m =>
    (d.banks.Hold m ∧ m.device.queue = []) ∨ d.banks.Ready m) fun m h => .inr h
  have hflush : Triple (Driving.On d fun m => (d.banks.Hold m ∧ m.device.queue = []) ∧
        d.Unless false (fun m => d.Tail m ∧ Counts 0 m) m)
      (Driving.configure d.registers) (fun _ h => ∃ generation, Driving.On
        (d.probing generation false) (fun m => d.banks.Ready m ∧
          d.Unless false (fun m => m.device.queue = []) m) h) fun _ => True := by
    apply Driving.triple_executeProgram (fun _ _ => trivial)
    intro stream hs
    have hflushable : Flushable d (fun m => d.banks.Hold m ∧ m.device.queue = []) stream := by
      refine flushable_program hd hs (fun instr hi => ?_) fun m h => ready_registers h.1 h.2
      obtain ⟨r, _, rfl⟩ := List.mem_map.mp hi
      exact id
    refine (triple_flushed hd hidle Banks.indifferent_idle (hidle.or hready)
      (Banks.indifferent_idle.or Banks.indifferent_ready) (fun m h => .inr h) hflushable false
      0).weaken (fun _ h => h) (fun _ h hh => ?_) fun _ _ => trivial
    obtain ⟨generation, hon⟩ := hh
    exact ⟨generation, hon.mono fun m hm => ⟨hm.1, hm.2.mono And.left⟩⟩
  intro w hw
  have hs := hflush ⟨d, w⟩ ⟨rfl, hw⟩
  rw [configureNew_run]
  cases hr : (Driving.configure d.registers).run ⟨d, w⟩ with
  | mk r t =>
    rw [hr] at hs
    cases r with
    | ok polls => exact hs
    | error e => trivial

theorem triple_up {layout : Tcu.Layout} {P : Machine → Prop} :
    Triple (Sim.On layout P) (up : Action (Switch Simulator) RemoteError Unit)
      (fun _ => Sim.On layout P) (Sim.On layout P) := by
  change Triple _ (Switch.refusable FaultPlan.up up) _ _
  refine Triple.bind (Q := fun _ => Sim.On layout P) (Triple.view fun _ h => h)
    fun (refusal : Option RemoteError) => ?_
  cases refusal with
  | some error => exact Triple.fail fun _ h => h
  | none => exact fun w h => ⟨h.plan, h.remote.layout, h.remote.machine⟩

/-- A driver that is new is sound and ready, with nothing queued, no probe under way and no model
loaded. -/
theorem triple_new :
    Triple (Sim.On (Tcu.Layout.ofDepths arch) (Blank arch)) (Driver.new arch config)
      (fun d w => d.Sound ∧ d.arch = arch ∧ d.probe.outstanding = false ∧ d.closed = false ∧
        d.loaded = none ∧ Driving.On d (fun m => d.banks.Ready m ∧
          d.Unless false (fun m => m.device.queue = []) m) ⟨d, w⟩)
      fun _ => True := by
  have htrue : ∀ {P : Switch Simulator → Prop} w, P w → True := fun _ _ => trivial
  refine Triple.bind (Q := fun _ w => arch.validate = .ok () ∧
    Sim.On (Tcu.Layout.ofDepths arch) (Blank arch) w)
    (triple_ofSpec (fun _ _ hr h => ⟨hr, h⟩) htrue) fun _ => Triple.assume fun hv => ?_
  refine Triple.bind (Q := fun layout w => layout = Tcu.Layout.ofDepths arch ∧
    Sim.On (Tcu.Layout.ofDepths arch) (Blank arch) w)
    (triple_ofSpec (fun _ _ hr h => ⟨(Tcu.Layout.ofArchitecture_eq_ok hr).2, h⟩) htrue)
    fun layout => Triple.assume fun hlayout => ?_
  subst hlayout
  refine Triple.bind (Q := fun probe w => Probe.ofArchitecture arch = .ok probe ∧
    Sim.On (Tcu.Layout.ofDepths arch) (Blank arch) w)
    (triple_ofSpec (fun _ _ hr h => ⟨hr, h⟩) htrue) fun probe => Triple.assume fun hp => ?_
  refine Triple.bind (Q := fun _ => Sim.On (Tcu.Layout.ofDepths arch) (Blank arch))
    (Triple.view fun _ h => h) fun limit => ?_
  refine Triple.bind (Q := fun _ w => config.validate limit = .ok () ∧
    Sim.On (Tcu.Layout.ofDepths arch) (Blank arch) w)
    (Triple.ofExcept (fun _ _ hr h => ⟨hr, h⟩) htrue) fun _ => Triple.assume fun hc => ?_
  refine (Triple.mapError triple_up |>.weaken (fun _ h => h) (fun _ _ h => h) htrue).bind
    fun _ => ?_
  refine Triple.bind (Q := fun size w => Driver.bufferSize arch = .ok size ∧
    Sim.On (Tcu.Layout.ofDepths arch) (Blank arch) w)
    (Triple.ofExcept (fun _ _ hr h => ⟨hr, h⟩) htrue) fun size => Triple.assume fun hs => ?_
  refine (triple_allocate size).bind fun ⟨first, second⟩ => ?_
  have hd := Driver.sound_unconfigured first second hv hp hc hs
  have hout := (Probe.ofArchitecture_eq_ok hp).2.2.2.2.2.2
  refine (triple_configureNew hd).weaken (fun w hw => hw.mono fun m hm => ?_) ?_ fun _ h => h
  · have hq : m.device.queue = [] := by
      rw [hm.device]
      rfl
    have hnone : (m.memory.region? config.stagingBuffer).isSome = false := by
      obtain ⟨_, h0, h1⟩ := Config.names_ne hc
      rw [hm.other _ h0.symm h1.symm]
      rfl
    refine ⟨⟨hm.hold, hq⟩, hnone, fun _ => ⟨Driver.tail_of_empty hq, ?_⟩⟩
    rw [Counts, hm.device]
    rfl
  · rintro d w ⟨generation, hon⟩
    obtain rfl := hon.driver
    exact ⟨hd.probing .., rfl, rfl, rfl, rfl, hon⟩

end New

end TensorUnit.Host
