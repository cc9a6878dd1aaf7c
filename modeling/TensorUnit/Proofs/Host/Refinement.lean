import TensorUnit.Proofs.Host.Upkeep
import TensorUnit.Proofs.Sim.Order

namespace TensorUnit.Host

open TensorUnit.Action (Triple Keeps)
open Remote Sim
open Tcu (Instruction)

section Still

/-- A machine that holds its banks, and that is the same as another but for other buffers. -/
structure Still (b : Banks) (t m : Machine) : Prop where
  hold : b.Hold m
  device : m.device = t.device
  contents : ∀ k, b.contents m k = b.contents t k

variable {b : Banks} {t m : Machine}

theorem Still.beside (h : Still b t m) {name : String} (hn : ∀ k, b.name k ≠ name)
    {memory : Memory} (ha : memory.Apart) (hb : Memory.Beside name m.memory memory) :
    Still b t { m with memory } :=
  ⟨h.hold.beside hn ha hb, h.device, fun k => (hb.bytes (hn k)).trans (h.contents k)⟩

theorem Still.agree (h : Still b t m) : b.Agree m t := by
  obtain ⟨_, hd, hc⟩ := h
  exact ⟨by rw [hd], by rw [hd], by rw [hd], hc⟩

variable (ht : b.Hold t) {k : Bank} {start : Nat}
include ht

theorem Still.put_nil (h : Still b t m) (hs : start ≤ b.size) : Still b (b.put t k start []) m := by
  refine ⟨h.hold, h.device, fun j => (h.contents j).trans ?_⟩
  change t.memory.bytes (b.name j) = (b.put t k start []).memory.bytes (b.name j)
  rw [ht.contents_put hs, splice_nil]
  split
  · rename_i he
    rw [he]
    rfl
  · rfl

theorem fills_still (hq : t.device.queue = []) {data : List UInt8}
    (hin : start + data.length ≤ b.size) :
    Fills (b.name k) start data (fun n => Still b (b.put t k start (data.take n))) b.Hold where
  write n chunk position m h hle hc ho _ hfit := by
    refine ⟨h.hold.write .., h.device, fun j => ?_⟩
    have hpart : ∀ n name, (b.put t k start (data.take n)).memory.bytes name = _ := fun n name =>
      ht.contents_put
        (Nat.le_trans (Nat.add_le_add_left (List.length_take_le' n data) _) hin) name
    have hm : m.memory.bytes (b.name j) = _ := (h.contents j).trans (hpart n (b.name j))
    change (m.memory.write (b.name k) position chunk).bytes (b.name j) =
      (b.put t k start (data.take (n + chunk.length))).memory.bytes (b.name j)
    rw [hpart]
    by_cases hj : b.name j = b.name k
    · rw [hj, if_pos rfl] at hm ⊢
      exact Memory.bytes_write_more hm hle hc ho (by rw [ht.length_contents k]; omega)
    · rw [if_neg hj] at hm ⊢
      rw [Memory.bytes_write (by rw [ho]; exact hfit), if_neg hj]
      exact hm
  step _ := Banks.triple_idle fun m h => by rw [h.device]; exact hq
  stop _ _ h := h.hold
  small _ m h := h.hold.apart.length_bytes_lt (b.name k)

end Still

namespace Driver

variable (d : Driver)

/-- The machine with the next stamp in the last row of DRAM0 and zeroes in the last but one. -/
def armed (m : Machine) : Machine :=
  d.banks.putRow (d.banks.putRow m .dram0 (d.arch.dram0Depth - 1) (d.rowOf d.next.probe.stamp))
    .dram0 (d.arch.dram0Depth - 2) (d.rowOf 0)

variable {d}

theorem Sound.row_lt (hd : d.Sound) {n : UInt64} (h1 : 1 ≤ n) (h2 : n ≤ 2) :
    d.arch.dram0Depth - n < d.banks.arch.depth Bank.dram0.space := by
  have hdepth := hd.depth
  have h1 := UInt64.le_iff_toNat_le.mp h1
  have h2 := UInt64.le_iff_toNat_le.mp h2
  change 1 ≤ _ at h1
  change _ ≤ 2 at h2
  change d.arch.dram0Depth - n < d.arch.dram0Depth
  rw [UInt64.lt_iff_toNat_lt, UInt64.toNat_sub_of_le _ _ (UInt64.le_iff_toNat_le.mpr (by omega))]
  omega

theorem hold_armed {m : Machine} (h : d.banks.Hold m) : d.banks.Hold (d.armed m) :=
  (h.of_kept (Banks.kept_putRow ..)).of_kept (Banks.kept_putRow ..)

theorem twin_armed (hd : d.Sound) {m t : Machine} (h : d.banks.Twin m t) :
    d.banks.Twin (d.armed m) (d.armed t) :=
  (h.putRow hd.fit (hd.row_lt (by decide) (by decide)) (length_rowOf _)).putRow hd.fit
    (hd.row_lt (by decide) (by decide)) (length_rowOf _)

theorem cleared_armed (hd : d.Sound) {m : Machine} (h : d.banks.Hold m) :
    d.Cleared d.arch.rowBytes (d.armed m) := by
  intro i hlo hhi
  have hrow := hd.row_lt (n := 2) (by decide) (by decide)
  have hle := hd.fit.row_le hrow
  have hsource : d.banks.Hold (d.banks.putRow m .dram0 (d.arch.dram0Depth - 1)
      (d.rowOf d.next.probe.stamp)) := h.of_kept (Banks.kept_putRow ..)
  have hlen := hsource.length_contents .dram0
  rw [target, hd.target] at hlo hhi
  change ((d.armed m).memory.bytes _)[i]? = _
  rw [armed, hsource.contents_putRow hd.fit hrow (Nat.le_of_eq (length_rowOf _)), if_pos rfl,
    getElem?_splice (by rw [length_rowOf, hlen]; exact hle), length_rowOf, if_pos ⟨hlo, hhi⟩]
  change (d.arch.dram0Depth - 2).toNat * d.arch.rowBytes ≤ i at hlo
  change i < (d.arch.dram0Depth - 2).toNat * d.arch.rowBytes + d.arch.rowBytes at hhi
  have hlt : i - (d.arch.dram0Depth - 2).toNat * d.arch.rowBytes < (d.rowOf 0).length := by
    rw [length_rowOf]
    omega
  exact (List.getElem?_eq_getElem hlt).trans (congrArg some (rowOf_zero _ (List.getElem_mem hlt)))

end Driver

def Driver.Ran (d : Driver) (s : Machine) (stream : List UInt8) (m : Machine) : Prop :=
  ∃ program t, Simulator.instructions d.layout stream = .ok program ∧
    (Machine.executeAll (program ++ d.probe.instructions)).run (d.armed s) = (.ok (), t) ∧
    d.banks.Agree m t

def Driver.Working (d : Driver) (s : Machine) (stream : List UInt8) (m : Machine) : Prop :=
  ∃ program, Simulator.instructions d.layout stream = .ok program ∧
    d.banks.Progress (program ++ d.probe.instructions) (d.armed s) m ∧
    d.Pending [] True m ∧ Counts (s.device.executed + (program.length + 2)) m

section Run

variable {d : Driver} (hd : d.Sound) {s : Machine} (hs : d.banks.Hold s)
  (hq : s.device.queue = [])
include hd hs hq

omit hs in
theorem triple_settle_still :
    Triple (Probing.On d (Still d.banks s)) (Probing.settle (d.mem .dram0) d.config.flush)
      (fun _ => Probing.On (d.probing d.probe.generation false) (Still d.banks s))
      fun _ => True := by
  have hqueue : ∀ m, Still d.banks s m → m.device.queue = [] := fun m h => by rw [h.device, hq]
  have hidle : d.banks.Steady (Still d.banks s) d.banks.Hold :=
    Banks.steady_idle (fun _ h => h.hold) hqueue fun _ h => h.hold
  refine Triple.strengthen (P := fun t => ∃ left, Probing.On d (fun m => Still d.banks s m ∧
    d.Unless left (fun m => d.Tail m ∧ Counts s.device.executed m) m) t)
    (Triple.exists fun left => ?_) fun t ht => ?_
  · exact (triple_settle hidle hd left _ _).weaken (fun _ h => h)
      (fun _ _ h => h.mono fun _ hm => hm.1) fun _ _ => trivial
  · have hm := ht.remote.remote.machine
    have hcount : Counts s.device.executed t.remote.remote.machine := by
      rw [Counts, hqueue _ hm, hm.device]
      rfl
    exact ⟨_, ht.probe, ht.remote.plan, ht.remote.remote.layout, hm, rfl,
      fun _ => ⟨Driver.tail_of_empty (hqueue _ hm), hcount⟩⟩

theorem triple_arm_still :
    Triple (Probing.On d (Still d.banks s)) (Probing.arm (d.mem .dram0))
      (fun _ => Probing.On d.next (Still d.banks (d.armed s))) fun _ => True := by
  have hsource := hd.fit.row_le (hd.row_lt (n := 1) (by decide) (by decide))
  have htarget := hd.fit.row_le (hd.row_lt (n := 2) (by decide) (by decide))
  let t := d.banks.putRow s .dram0 (d.arch.dram0Depth - 1) (d.rowOf d.next.probe.stamp)
  have ht : d.banks.Hold t := hs.of_kept (Banks.kept_putRow ..)
  refine (triple_arm hd (E := d.banks.Hold)
    (I := fun bytes n => Still d.banks
      (d.banks.putRow s .dram0 (d.arch.dram0Depth - 1) (bytes.take n)))
    (J := fun _ zeros n => Still d.banks
      (d.banks.putRow t .dram0 (d.arch.dram0Depth - 2) (zeros.take n)))
    (fun bytes hb => ?_) (fun bytes zeros hb hz => ?_) fun m hm => hm.hold).weaken
    (fun _ h => h) (fun _ s hs => hs.mono ?_) fun _ _ => trivial
  · rw [hd.source]
    exact ⟨fills_still hs hq (hb.length ▸ hsource), fun m hm =>
      hm.put_nil hs (Nat.le_trans (Nat.le_add_right ..) hsource)⟩
  · rw [Driver.target, hd.target]
    refine ⟨fills_still ht hq (hz.length ▸ htarget), fun m hm => ?_⟩
    rw [List.take_length, hb.eq] at hm
    exact hm.put_nil ht (Nat.le_trans (Nat.le_add_right ..) htarget)
  · rintro m ⟨bytes, zeros, _, hz, hm⟩
    rwa [List.take_length, hz.eq] at hm

omit hs in
theorem submits_armed {S : Machine → Prop} {stream : List UInt8} (hold : ∀ m, S m → d.banks.Hold m)
    (beside : ∀ m memory, S m → memory.Apart →
      Memory.Beside d.config.stagingBuffer m.memory memory → S { m with memory })
    (send : ∀ m queued, Still d.banks (d.armed s) m →
      Simulator.instructions d.layout stream = .ok queued →
      S { m with device := m.device.enqueue queued })
    (work : Triple S Machine.executeNext (fun _ => S) d.banks.Hold) :
    Driving.Submits d.next stream (Still d.banks (d.armed s)) S d.banks.Hold fun _ => True where
  apart m h := (h.elim Still.hold fun h => h.elim (hold m) id).apart
  beside m memory ha hb :=
    ⟨fun h => h.beside hd.staging ha hb, fun h => beside m memory h ha hb,
      fun h => h.beside hd.staging ha hb⟩
  send := send
  wait bytes := Banks.triple_idle fun m h => by rw [h.1.device]; exact hq
  work := work
  keep := Banks.keeps_hold
  stop _ h := h.hold
  fail _ _ := trivial
  leak _ _ _ := trivial

/-- A stream that is waited for on an idle unit: `S` holds from the time that it is queued. -/
theorem triple_executeStream_idle {S : Machine → Prop} {stream : List UInt8}
    {Q : Nat → Driving (Switch Simulator) → Prop}
    (hsend : ∀ probe, stream.length % d.layout.instructionBytes = 0 →
      Tcu.assemble d.layout d.probe.instructions = .ok probe →
      Driving.Submits (d.probing d.probe.generation false).next (stream ++ probe)
        (Still d.banks (d.armed s)) S d.banks.Hold fun _ => True)
    (hwait : Triple
      (Driving.On (d.probing d.probe.generation false).next fun m => S m ∧
        (m.memory.region? d.config.stagingBuffer).isSome = false)
      (Driving.onProbe (Probing.wait (d.mem .dram0) d.config.flush)) Q fun _ => True) :
    Triple (Driving.On d (Still d.banks s)) (Driving.executeStream stream) Q fun _ => True := by
  let e := d.probing d.probe.generation false
  have he : e.Sound := hd.probing ..
  refine Driving.triple_executeStream (d := d) (R := Driving.On e (Still d.banks s))
    (S := Driving.On e.next (Still d.banks (d.armed s)))
    (T := Driving.On e.next fun m => S m ∧
      (m.memory.region? d.config.stagingBuffer).isSome = false)
    ?_ (fun _ _ => trivial) ?_ ?_ (fun probe hm hp => ?_) hwait
  · exact fun h hh => hh.elim (fun ho => ⟨_, _, ho.driver⟩) fun ho => ⟨_, _, ho.driver⟩
  · exact (Driving.triple_onProbe (triple_settle_still hd hq)).weaken (fun _ h => h)
      (fun _ h ha => ha.on) fun _ _ => trivial
  · exact (Driving.triple_onProbe (triple_arm_still (d := e) he hs hq)).weaken (fun _ h => h)
      (fun _ h ha => ha.on) fun _ _ => trivial
  · exact (Driving.triple_dmaWrite (hsend probe hm hp) (append_probe_ne_nil hd hp)
      (fun _ h _ => h) fun _ _ => trivial).weaken (fun _ h => h) (fun _ _ h => h)
      fun _ _ => trivial

omit hd hs hq in
theorem tame_probe {program : List Instruction} (ht : d.Tame program) :
    ∀ instr ∈ program ++ d.probe.instructions, ¬ ConfiguresBank instr := by
  intro instr hi
  rcases List.mem_append.mp hi with hi | hi
  · exact (ht instr hi).2
  · exact not_configuresBank_probe instr hi

variable (hl : d.banks.Located s.device) {stream : List UInt8} (ht : d.TameStream stream)
include hl ht

theorem submits_still {probe : List UInt8}
    (hm : stream.length % d.layout.instructionBytes = 0)
    (hp : Tcu.assemble d.layout d.probe.instructions = .ok probe) :
    Driving.Submits d.next (stream ++ probe) (Still d.banks (d.armed s)) (d.Working s stream)
      d.banks.Hold fun _ => True := by
  refine submits_armed hd hq ?_ ?_ ?_ ?_
  · rintro m ⟨program, hprogram, h, _⟩
    exact (h.ready (tame_probe (ht program hprogram))).hold
  · rintro m memory ⟨program, hprogram, h, hpend, hcount⟩ ha hb
    exact ⟨program, hprogram, h.beside hd.staging ha hb,
      hpend.imp id fun hw => ⟨⟨hw.1.1, hw.1.2.beside hd hb⟩, hw.2⟩, hcount⟩
  · intro m queued h hi
    obtain ⟨program, hprogram, rfl⟩ := instructions_probe hd hm hp hi
    have htame := ht program hprogram
    have hqueue : m.device.queue = [] := by
      rw [h.device]
      exact hq
    have hexecuted : m.device.executed = s.device.executed := by
      rw [h.device]
      rfl
    refine ⟨program, hprogram, ⟨[], d.armed s, ?_, rfl, ?_⟩,
      .inr ⟨⟨⟨program ++ [d.fetch], ?_, ?_⟩, ?_⟩, trivial⟩, ?_⟩
    · rw [Device.enqueue, hqueue]
      rfl
    · have hagree := h.agree
      refine ⟨⟨h.hold.arch, h.hold.cells, h.hold.apart, h.hold.extents⟩, Driver.hold_armed hs,
        fun k => ?_, ⟨hagree.registers, hagree.scratchpad, hagree.accumulator, hagree.contents⟩⟩
      have hk := hagree.symm.located (fun k => hl k) k
      exact hk
    · change m.device.queue ++ (program ++ [d.fetch, d.carry]) = _
      rw [hqueue, List.nil_append, List.append_assoc]
      rfl
    · intro instr hi
      rcases List.mem_append.mp hi with hi | hi
      · exact (htame instr hi).1
      · rw [List.mem_singleton.mp hi]
        exact not_writesDram0_fetch
    · intro i hlo hhi
      change (m.memory.bytes _)[i]? = some 0
      exact (congrArg (·[i]?) (h.contents .dram0)).trans (Driver.cleared_armed hd hs i hlo hhi)
    · change m.device.executed + (m.device.queue ++ (program ++ [d.fetch, d.carry])).length = _
      rw [hqueue, hexecuted, List.nil_append, List.length_append]
      rfl
  · exact Triple.exists fun program => Triple.assume fun hprogram =>
      (triple_pending (Banks.steady_progress hd.fit (tame_probe (ht program hprogram)))).weaken
        (fun _ h => h) (fun _ _ h => ⟨program, hprogram, h⟩) fun _ h => h.1

/-- A stream that is waited for on an idle unit leaves what it leaves in order. -/
theorem triple_executeStream_still :
    Triple (Driving.On d (Still d.banks s)) (Driving.executeStream stream)
      (fun _ h => ∃ generation, Driving.On (d.probing generation false)
        (fun m => m.device.queue = [] ∧ d.Ran s stream m) h)
      fun _ => True := by
  let e := d.probing d.probe.generation false
  have he : e.Sound := hd.probing ..
  refine triple_executeStream_idle hd hs hq
    (fun probe hm hp => submits_still (d := e) he hs hq hl ht hm hp) ?_
  refine Triple.strengthen (P := fun h => ∃ program,
    Simulator.instructions d.layout stream = .ok program ∧ Driving.On e.next (fun m =>
      (d.banks.Progress (program ++ d.probe.instructions) (d.armed s) m ∧ d.Pending [] True m ∧
        Counts (s.device.executed + (program.length + 2)) m) ∧
      (m.memory.region? d.config.stagingBuffer).isSome = false) h)
    (Triple.exists fun program => Triple.assume fun hprogram => ?_) fun h hon => ?_
  · refine (Driving.triple_onProbe (triple_wait (d := e.next)
      (Banks.steady_progress hd.fit (tame_probe (ht program hprogram))) (he.probing ..) false []
      (s.device.executed + (program.length + 2)) d.config.flush)).weaken
      (fun h hon => hon.mono fun m hm => ⟨hm.1.1, hm.2, fun _ => hm.1.2⟩) (fun _ h ha => ?_)
      fun _ _ => trivial
    refine ⟨_, ha.on.mono fun m hm => ?_⟩
    have hqueue := List.suffix_nil.mp (hm.2.2 rfl).1
    obtain ⟨t, hrun, hagree⟩ := hm.1.all hqueue
    exact ⟨hqueue, program, t, hprogram, hrun, hagree⟩
  · obtain ⟨⟨program, hprogram, hwork⟩, hleft⟩ := hon.remote.remote.machine
    exact ⟨program, hprogram, hon.driver, hon.remote.plan, hon.remote.remote.layout, hwork, hleft⟩

end Run

theorem Driver.armed_congr {d e : Driver} (hb : e.banks = d.banks) (hp : e.probe = d.probe)
    (m : Machine) : e.armed m = d.armed m := by
  have harch : e.arch = d.arch := congrArg Banks.arch hb
  have hnext : e.next.probe = d.next.probe := by
    unfold next probing
    rw [hp]
  unfold armed rowOf
  rw [hb, harch, hnext]

/-- An open driver at rest: nothing is queued, and the unit finds its banks. -/
structure Driving.Rested (h : Driving (Switch Simulator)) : Prop where
  reached : Reached (fun _ _ => True) h
  opened : h.driver.closed = false
  idle : h.machine.device.queue = []
  located : h.driver.banks.Located h.machine.device

theorem Driving.Rested.held {h : Driving (Switch Simulator)} (hr : h.Rested) : h.Held := by
  rcases hr.reached.held with hc | hheld
  · rw [Closed, hr.opened] at hc
    cases hc
  · exact hheld

theorem Driving.Rested.hold {h : Driving (Switch Simulator)} (hr : h.Rested) :
    h.driver.banks.Hold h.machine :=
  hr.held.2.remote.remote.machine

theorem Driving.Rested.in_order {h h' : Driving (Switch Simulator)} (hr : h.Rested)
    {program : List Instruction} (ht : h.driver.Tame program) {polls : Nat}
    (hrun : (executeProgram program).run h = (.ok polls, h')) :
    ∃ t, (Machine.executeAll (program ++ h.driver.probe.instructions)).run
      (h.driver.armed h.machine) = (.ok (), t) ∧ h.driver.banks.Agree h'.machine t := by
  obtain ⟨hd, hon⟩ := hr.held
  have hstill : On h.driver (Still h.driver.banks h.machine) h :=
    ⟨rfl, hon.remote.plan, hon.remote.remote.layout, hr.hold, rfl, fun _ => rfl⟩
  have hexecute : Triple (On h.driver (Still h.driver.banks h.machine)) (executeProgram program)
      (fun _ t => ∃ stream, Tcu.assemble h.driver.layout program = .ok stream ∧
        h.driver.Ran h.machine stream t.machine) fun _ => True := by
    refine triple_executeProgram (fun _ _ => trivial) fun stream hs => ?_
    refine (triple_executeStream_still hd hr.hold hr.idle hr.located (ht.stream hd hs)).relax ?_
    rintro _ t ⟨_, hran⟩
    exact ⟨stream, hs, hran.remote.remote.machine.2⟩
  obtain ⟨stream, hs, queued, t, hq, ht', hagree⟩ := hexecute.ok hstill hrun
  obtain rfl : program = queued :=
    Except.ok.inj ((Simulator.instructions_assemble hd.whole hs).1.symm.trans hq)
  exact ⟨t, ht', hagree⟩

/-- A program that a driver at rest has executed leaves the registers, the scratchpad, the
accumulators and the banks as its instructions and the two moves of the probe leave them when they
are executed in order, from the state that the driver found with the two rows of the probe filled.
So drivers that start alike end alike, however large their chunks are and however far the unit gets
in one call. -/
theorem executeProgram_in_order {h h' : Driving (Switch Simulator)} (hr : h.Rested)
    {program : List Instruction} (ht : h.driver.Tame program) {polls : Nat}
    (hrun : (Driving.executeProgram program).run h = (.ok polls, h')) :
    (∃ t, (Machine.executeAll (program ++ h.driver.probe.instructions)).run
        (h.driver.armed h.machine) = (.ok (), t) ∧ h.driver.banks.Agree h'.machine t) ∧
      ∀ {g g' : Driving (Switch Simulator)} {more : Nat}, g.Rested →
        g.driver.banks = h.driver.banks → g.driver.probe = h.driver.probe →
        h.driver.banks.Agree h.machine g.machine →
        (Driving.executeProgram program).run g = (.ok more, g') →
        h.driver.banks.Agree h'.machine g'.machine := by
  obtain ⟨t, ht', hagree⟩ := hr.in_order ht hrun
  refine ⟨⟨t, ht', hagree⟩, fun {g g' more} hg hbanks hprobe hsame hrun' => ?_⟩
  have hd := hr.held.1
  have htarget : g.driver.Tame program := by
    intro instr hi
    rw [Driver.target, hprobe]
    exact ht instr hi
  obtain ⟨u, hu, hagree'⟩ := hg.in_order htarget hrun'
  rw [hprobe, Driver.armed_congr hbanks hprobe] at hu
  rw [hbanks] at hagree'
  have hghold := hg.hold
  rw [hbanks] at hghold
  have htwin := Driver.twin_armed hd ⟨hr.hold, hghold, hr.located, hsame⟩
  have halike := Banks.alike_executeAll hd.fit (tame_probe ht) _ _ htwin
  rw [ht', hu] at halike
  exact hagree.trans (halike.2.agree.trans hagree'.symm)

section Small

theorem exists_of_run {σ ε α : Type} {a : Action σ ε α} {s : σ} {x : α}
    (h : (a.run s).1.toOption = some x) : ∃ t, a.run s = (.ok x, t) := by
  cases hr : a.run s with
  | mk r t =>
    rw [hr] at h
    cases r with
    | error e => cases h
    | ok y =>
      cases h
      exact ⟨t, rfl⟩

theorem exists_of_run_error {σ ε α : Type} {a : Action σ ε α} {s : σ}
    (h : (a.run s).1.isOk = false) : ∃ e t, a.run s = (.error e, t) := by
  cases hr : a.run s with
  | mk r t =>
    rw [hr] at h
    cases r with
    | ok x => cases h
    | error e => exact ⟨e, t, rfl⟩

theorem located_of_registers {h : Driving (Switch Simulator)}
    (h0 : h.device.register .dram0AddressOffset = h.driver.offsets.dram0)
    (h1 : h.device.register .dram1AddressOffset = h.driver.offsets.dram1) :
    h.driver.banks.Located h.machine.device := by
  intro k
  cases k with
  | dram0 => exact h0
  | dram1 => exact h1

def laden (h : Driving (Switch Simulator)) : Driving (Switch Simulator) :=
  h.after (.write .dram0 ⟨0⟩ [5])

def copyRow : List Instruction :=
  [.move .dram0ToLocal 3 0 0, .move .localToDram1 3 0 0]

theorem executeProgram_in_order_copyRow :
    ∃ h h' g g' : Driving (Switch Simulator), h.Rested ∧ g.Rested ∧ h.driver.Tame copyRow ∧
      (Driving.executeProgram copyRow).run h = (.ok 1, h') ∧
      (Driving.executeProgram copyRow).run g = (.ok 3, g') ∧
      (∃ t, (Machine.executeAll (copyRow ++ h.driver.probe.instructions)).run
        (h.driver.armed h.machine) = (.ok (), t) ∧ h.driver.banks.Agree h'.machine t) ∧
      h.driver.banks.Agree h'.machine g'.machine := by
  obtain ⟨start, hs⟩ := exists_smallStart
  have hfacts : ∀ h ∈ smallStart, (laden h).driver.closed = false ∧
      (laden h).device.queue = [] ∧
      (laden h).device.register .dram0AddressOffset = (laden h).driver.offsets.dram0 ∧
      (laden h).device.register .dram1AddressOffset = (laden h).driver.offsets.dram1 ∧
      ((Driving.executeProgram copyRow).run (laden h)).1.toOption = some 1 ∧
      ((Driving.executeProgram copyRow).run ((laden h).tune false (some 1) none)).1.toOption =
        some 3 := by
    decide +kernel
  obtain ⟨hopen, hq, h0, h1, hall, hone⟩ := hfacts start hs
  obtain ⟨h', hrun⟩ := exists_of_run hall
  obtain ⟨g', hrun'⟩ := exists_of_run hone
  have hr : (laden start).Rested :=
    ⟨.perform (reached_smallStart hs) trivial, hopen, hq, located_of_registers h0 h1⟩
  have hg : ((laden start).tune false (some 1) none).Rested :=
    ⟨.tune _ _ _ hr.reached, hopen, hq, located_of_registers h0 h1⟩
  have ht : (laden start).driver.Tame copyRow := by
    intro instr hi
    rcases List.mem_cons.mp hi with rfl | hi
    · exact ⟨id, id⟩
    · rw [List.mem_singleton.mp hi]
      exact ⟨id, id⟩
  obtain ⟨horder, hsame⟩ := executeProgram_in_order hr ht hrun
  exact ⟨_, h', _, g', hr, hg, ht, hrun, hrun', horder, hsame hg rfl rfl (.refl _) hrun'⟩

/-- The small unit after it has been told that DRAM1 starts in another block. -/
def relocated (h : Driving (Switch Simulator)) : Driving (Switch Simulator) :=
  h.after (.configure [(.dram1AddressOffset, 4)])

/-- A unit that does not find its banks may find the staging buffer instead, which is gone when the
program has been executed: in order the program would fault. -/
theorem executeProgram_relocated :
    ∃ h h' : Driving (Switch Simulator), Reached (fun _ _ => True) h ∧
      h.driver.closed = false ∧ h.driver.probe.outstanding = false ∧ h.device.queue = [] ∧
      h.remote.plan.calls = [] ∧ h.remote.remote.config.failBufferWriteAt = none ∧
      h.driver.Tame [.move .localToDram1 0 0 0] ∧
      (Driving.executeProgram [.move .localToDram1 0 0 0]).run h = (.ok 1, h') ∧
      ¬ ∃ t, (Machine.executeAll ([.move .localToDram1 0 0 0] ++ h.driver.probe.instructions)).run
        (h.driver.armed h.machine) = (.ok (), t) ∧ h.driver.banks.Agree h'.machine t := by
  obtain ⟨start, hs⟩ := exists_smallStart
  have hfacts : ∀ h ∈ smallStart, (relocated h).driver.closed = false ∧
      (relocated h).driver.probe.outstanding = false ∧ (relocated h).device.queue = [] ∧
      (relocated h).remote.plan.calls = [] ∧
      (relocated h).remote.remote.config.failBufferWriteAt = none ∧
      ((Driving.executeProgram [.move .localToDram1 0 0 0]).run (relocated h)).1.toOption =
        some 1 ∧
      ((Machine.executeAll ([.move .localToDram1 0 0 0] ++
        (relocated h).driver.probe.instructions)).run
          ((relocated h).driver.armed (relocated h).machine)).1.toOption = none := by
    decide +kernel
  obtain ⟨hopen, hout, hq, hplan, hwrite, hall, hfault⟩ := hfacts start hs
  obtain ⟨h', hrun⟩ := exists_of_run hall
  refine ⟨relocated start, h', .perform (reached_smallStart hs) trivial, hopen, hout, hq, hplan,
    hwrite, fun instr hi => ?_, hrun, ?_⟩
  · rw [List.mem_singleton.mp hi]
    exact ⟨id, id⟩
  · rintro ⟨t, ht, _⟩
    rw [ht] at hfault
    cases hfault

end Small

end TensorUnit.Host
