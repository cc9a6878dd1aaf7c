import Mathlib
import TensorUnit.Host.Document
import TensorUnit.Proofs.Host.Moments
import TensorUnit.Proofs.Host.Trust
import TensorUnit.Proofs.Sim.Moves

namespace TensorUnit.Host

open TensorUnit.Action (Triple Keeps KeepsOr)
open Remote Sim
open Tcu (Instruction)

namespace Placement

def Covers (p : Placement) (row : Nat) : Prop :=
  p.base.toNat ≤ row ∧ row < p.base.toNat + p.size.toNat

/-- No row belongs to both. -/
def Apart (p q : Placement) : Prop :=
  ∀ row, p.Covers row → ¬ q.Covers row

/-- The instruction writes into none of the regions. -/
def Spared (regions : List Placement) (instr : Instruction) : Prop :=
  ∀ row, WritesDram0 instr row → ∀ p ∈ regions, ¬ p.Covers row.toNat

theorem covers_div {p : Placement} {rowBytes length i : Nat}
    (hfit : length ≤ p.size.toNat * rowBytes) (hlo : p.base.toNat * rowBytes ≤ i)
    (hhi : i < p.base.toNat * rowBytes + length) : p.Covers (i / rowBytes) := by
  have hpos : 0 < rowBytes := by
    by_contra hz
    rw [Nat.eq_zero_of_not_pos hz] at hfit hlo hhi
    omega
  refine ⟨(Nat.le_div_iff_mul_le hpos).mpr hlo, (Nat.div_lt_iff_lt_mul hpos).mpr ?_⟩
  rw [Nat.add_mul]
  omega

end Placement

/-- A program that is to be run: its stream, its inputs and their regions, how many instructions are
executed or queued before it, and the instance on which the run starts. -/
structure Feed where
  stream : List UInt8
  inputs : Driving.Tensors
  regions : List Placement
  count : Nat
  start : Switch Simulator

namespace Driver

variable (d : Driver) (f : Feed)

/-- The first scalars from a row of DRAM0 on. -/
def scalars (row : UInt64) (count : Nat) (m : Machine) : List Int :=
  d.arch.dataType.ofBytes (((d.banks.contents m .dram0).drop
    (row.toNat * d.arch.rowBytes)).take (count * d.arch.dataType.scalarBytes))

def Holds (region : Placement) (m : Machine) : Prop :=
  ∃ values bytes, f.inputs.lookup region.name = some values ∧
    d.arch.dataType.toBytes (values.map d.arch.dataType.toFixed) = .ok bytes ∧
    bytes.length ≤ region.size.toNat * d.arch.rowBytes ∧
    d.banks.Shows (region.base.toNat * d.arch.rowBytes) bytes bytes.length m

def Fed (regions : List Placement) (m : Machine) : Prop :=
  ∀ region ∈ regions, d.Holds f region m

def Primed (m : Machine) : Prop :=
  d.banks.Ready m ∧ (∀ instr ∈ m.device.queue, Placement.Spared f.regions instr) ∧
    Counts f.count m

def Written (done : List Placement) (m : Machine) : Prop :=
  d.Primed f m ∧ d.Fed f done m

/-- The program is queued last. Until all that was queued before it is executed, the inputs are in
their regions. -/
def Begins (m : Machine) : Prop :=
  d.banks.Ready m ∧ (m.device.executed ≤ f.count → ∃ program rest,
    Simulator.instructions d.layout f.stream = .ok program ∧
    m.device.queue = rest ++ (program ++ d.probe.instructions) ∧
    m.device.executed + rest.length = f.count ∧
    (∀ instr ∈ rest, Placement.Spared f.regions instr) ∧ d.Fed f f.regions m)

def Starts (m : Machine) : Prop :=
  m.device.executed = f.count → ∃ program,
    Simulator.instructions d.layout f.stream = .ok program ∧
    m.device.queue = program ++ d.probe.instructions ∧ d.Fed f f.regions m

variable {d : Driver} {f : Feed} {region : Placement} {m t : Machine} {instr : Instruction}

theorem Holds.scalars (h : d.Holds f region m) : ∃ values,
    f.inputs.lookup region.name = some values ∧
      d.scalars region.base values.length m = values.map d.arch.dataType.toFixed := by
  obtain ⟨values, bytes, hl, hb, _, hshows⟩ := h
  have hlen : bytes.length = values.length * d.arch.dataType.scalarBytes := by
    rw [DataType.length_toBytes hb, List.length_map]
  refine ⟨values, hl, ?_⟩
  rw [Driver.scalars, ← hlen, hshows.window]
  exact DataType.ofBytes_toBytes hb

theorem Holds.of_next (h : d.Holds f region m) (hn : d.banks.Next instr m t)
    (hi : ∀ row, WritesDram0 instr row → ¬ region.Covers row.toNat) :
    d.Holds f region t := by
  obtain ⟨values, bytes, hl, hb, hfit, hshows⟩ := h
  refine ⟨values, bytes, hl, hb, hfit, hshows.of_next hn fun row hr i hlo hhi he => hi row hr ?_⟩
  exact he ▸ Placement.covers_div hfit hlo hhi

theorem Holds.write (h : d.Holds f region m) {name : String} {offset : UInt64}
    {data : List UInt8} (hfit : offset.toNat + data.length ≤ (m.memory.bytes name).length)
    (hout : ∀ i, offset.toNat ≤ i → i < offset.toNat + data.length →
      ¬ region.Covers (i / d.arch.rowBytes)) :
    d.Holds f region { m with memory := m.memory.write name offset data } := by
  obtain ⟨values, bytes, hl, hb, hsize, hshows⟩ := h
  refine ⟨values, bytes, hl, hb, hsize, hshows.write hfit fun _ i hlo hhi hi => ?_⟩
  exact hout i hi.1 hi.2 (Placement.covers_div hsize hlo hhi)

theorem Holds.beside (hd : d.Sound) (h : d.Holds f region m) {memory : Memory}
    (hb : Memory.Beside d.config.stagingBuffer m.memory memory) :
    d.Holds f region { m with memory } := by
  obtain ⟨values, bytes, hl, hbytes, hsize, hshows⟩ := h
  exact ⟨values, bytes, hl, hbytes, hsize, hshows.beside hd.staging hb⟩

theorem Primed.memory (h : d.Primed f m) {memory : Memory}
    (hold : d.banks.Hold { m with memory }) : d.Primed f { m with memory } :=
  ⟨Banks.indifferent_ready m memory h.1 hold, h.2⟩

theorem Primed.starts (h : d.Primed f m) (hq : m.device.queue ≠ []) : d.Starts f m := by
  intro he
  have hc := h.2.2
  rw [Counts, he] at hc
  exact absurd (List.eq_nil_of_length_eq_zero (by omega)) hq

theorem Begins.starts (h : d.Begins f m) : d.Starts f m := by
  intro he
  obtain ⟨program, rest, hp, hq, hc, _, hfed⟩ := h.2 (Nat.le_of_eq he)
  obtain rfl : rest = [] := List.eq_nil_of_length_eq_zero (by omega)
  exact ⟨program, hp, hq, hfed⟩

end Driver

section Machines

variable {d : Driver} {f : Feed} {done : List Placement} (hd : d.Sound)
include hd

theorem triple_primed {J : Machine → Prop} (hJ : ∀ m instr t, J m →
      Placement.Spared f.regions instr → d.banks.Next instr m t → J t) :
    Triple (fun m => d.Primed f m ∧ J m) Machine.executeNext
      (fun _ m => d.Primed f m ∧ J m) d.banks.Ready := by
  refine ((Banks.steady_ready hd.fit).step (J := fun m =>
      ((∀ instr ∈ m.device.queue, Placement.Spared f.regions instr) ∧ Counts f.count m) ∧ J m)
    (E := fun _ => True) ?_ fun _ _ _ _ _ _ _ _ => trivial).weaken
    (fun _ h => ⟨h.1.1, h.1.2, h.2⟩)
    (fun _ _ h => ⟨⟨h.1, h.2.1⟩, h.2.2⟩) fun _ h => h.1
  rintro m instr t _ ⟨⟨hs, hc⟩, hj⟩ hq he hnext
  refine ⟨⟨fun j hi => hs j ?_, hc.of_next hq he⟩, hJ m instr t hj (hs instr ?_) hnext⟩
  · exact hq ▸ List.mem_cons_of_mem _ hi
  · exact hq ▸ List.mem_cons_self ..

theorem triple_written : Triple (d.Written f f.regions) Machine.executeNext
    (fun _ => d.Written f f.regions) d.banks.Ready :=
  triple_primed hd fun _ _ _ h hs hnext p hp =>
    (h p hp).of_next hnext fun row hw => hs row hw p hp

theorem triple_primed_only :
    Triple (d.Primed f) Machine.executeNext (fun _ => d.Primed f) d.banks.Ready :=
  (triple_primed hd (J := fun _ => True) fun _ _ _ _ _ _ => trivial).weaken
    (fun _ h => ⟨h, trivial⟩) (fun _ _ h => h.1) fun _ h => h

theorem triple_begins : Triple (d.Begins f) Machine.executeNext
    (fun _ => d.Begins f) d.banks.Ready := by
  refine ((Banks.steady_ready hd.fit).step ?_ fun _ _ _ _ _ _ _ _ => trivial).weaken
    (fun _ h => h) (fun _ _ h => h) (E := fun m => d.banks.Ready m ∧ True) fun _ h => h.1
  intro m instr t _ hm hq he hnext hle
  obtain ⟨program, rest, hp, hqueue, hc, hs, hfed⟩ := hm (by omega)
  cases rest with
  | nil =>
    rw [List.length_nil] at hc
    omega
  | cons first rest =>
    rw [hq] at hqueue
    obtain ⟨rfl, hrest⟩ := List.cons.inj hqueue
    rw [List.length_cons] at hc
    refine ⟨program, rest, hp, hrest, by omega, fun j hj => hs j (List.mem_cons_of_mem _ hj),
      fun p hmem => (hfed p hmem).of_next hnext fun row hw => ?_⟩
    exact hs instr (List.mem_cons_self ..) row hw p hmem

theorem fills_input {region : Placement} {bytes : List UInt8}
    (hsize : bytes.length ≤ region.size.toNat * d.arch.rowBytes)
    (hplaced : region.base.toNat + region.size.toNat ≤ d.target.toNat)
    (hapart : ∀ p ∈ done, p.Apart region) (hmem : ∀ p, p = region ∨ p ∈ done → p ∈ f.regions) :
    Fills (d.banks.name .dram0) (region.base.toNat * d.arch.rowBytes) bytes
      (fun n m => d.Good m ∧ d.Primed f m ∧ d.Fed f done m ∧
        d.banks.Shows (region.base.toNat * d.arch.rowBytes) bytes n m) fun _ => True where
  write n chunk position m h hn hc ho _ hfit := by
    obtain ⟨hg, hp, hfed, hshows⟩ := h
    have hcovers : ∀ i, position.toNat ≤ i → i < position.toNat + chunk.length →
        region.Covers (i / d.arch.rowBytes) := fun i hlo hhi =>
      Placement.covers_div hsize (by omega) (by omega)
    refine ⟨hg.write (by omega) fun _ i hlo hhi he => ?_, hp.memory (hp.1.hold.write ..),
      fun p hpd => (hfed p hpd).write (by omega) fun i hlo hhi hpi => ?_,
      hshows.fill (by omega) ho hc⟩
    · have hrow := (hcovers i hlo hhi).2
      omega
    · exact hapart p hpd _ hpi (hcovers i hlo hhi)
  step n := by
    have hkeep := triple_primed (f := f) hd (J := fun m =>
      d.Fed f done m ∧ d.banks.Shows (region.base.toNat * d.arch.rowBytes) bytes n m) ?_
    · exact ((triple_good hd).and hkeep).weaken (fun _ h => h) (fun _ _ h => h)
        fun _ _ => trivial
    · rintro m instr t ⟨hfed, hshows⟩ hs hnext
      refine ⟨fun p hp => (hfed p hp).of_next hnext fun row hw => hs row hw p (hmem p (.inr hp)),
        hshows.of_next hnext fun row hw i hlo hhi he => hs row hw region (hmem _ (.inl rfl)) ?_⟩
      exact he ▸ Placement.covers_div hsize hlo hhi
  stop _ _ _ := trivial
  small _ m h := h.2.1.1.hold.apart.length_bytes_lt _

theorem fills_row {row : UInt64} {bytes : List UInt8} (hl : bytes.length = d.arch.rowBytes)
    (hout : ∀ p ∈ f.regions, ¬ p.Covers row.toNat) :
    Fills (d.banks.name .dram0) (row.toNat * d.arch.rowBytes) bytes
      (fun _ => d.Written f f.regions) fun _ => True where
  write n chunk position m h hn _ ho _ hfit := by
    refine ⟨h.1.memory (h.1.1.hold.write ..), fun p hp =>
      (h.2 p hp).write (by omega) fun i hlo hhi => ?_⟩
    have hrow : i / d.arch.rowBytes = row.toNat :=
      Nat.div_eq_of_lt_le (by omega) (by rw [Nat.succ_mul]; omega)
    exact hrow ▸ hout p hp
  step _ := (triple_written hd).weaken (fun _ h => h) (fun _ _ h => h) fun _ _ => trivial
  stop _ _ _ := trivial
  small _ m h := h.1.1.hold.apart.length_bytes_lt _

end Machines

namespace Driving

section Run

variable {d : Driver} {f : Feed} {done rest : List Placement}

/-- The run has come to an instance in a set of states, and if the program has started meanwhile, it
was behind the inputs. -/
def Guarded (d : Driver) (f : Feed) (J : Machine → Prop) (w : Switch Simulator) : Prop :=
  Watched f.start (d.Starts f) w ∧ Sim.On d.layout J w

theorem Guarded.mono {J K : Machine → Prop} {w : Switch Simulator} (h : Guarded d f J w)
    (hJ : ∀ m, J m → K m) : Guarded d f K w :=
  ⟨h.1, h.2.mono hJ⟩

variable (hd : d.Sound)
include hd

theorem writable_primed {name : String} :
    Writable (Guarded d f (d.Primed f)) (Guarded d f d.banks.Ready) name :=
  writable_followed follows_watched (triple_primed_only hd) (fun _ h => h.1)
    (fun _ h hq => h.starts hq) fun _ _ _ h => h.memory (h.1.hold.write ..)

theorem readable_written {name : String} :
    Readable (Guarded d f (d.Written f f.regions)) (Guarded d f d.banks.Ready) name :=
  readable_followed follows_watched (triple_written hd) (fun _ h => h.1.1)
    fun _ h hq => h.1.starts hq

theorem readable_begins {name : String} :
    Readable (Guarded d f (d.Begins f)) (Guarded d f d.banks.Ready) name :=
  readable_followed follows_watched (triple_begins hd) (fun _ h => h.1) fun _ h _ => h.starts

section Write

variable {region : Placement} {address : ScalarAddress} {values : List Double}
variable (hl : f.inputs.lookup region.name = some values) (hf : d.Feeds region address values)
variable (hplaced : region.base.toNat + region.size.toNat ≤ d.target.toNat)
variable (hapart : ∀ p ∈ done, p.Apart region)
variable (hmem : ∀ p, p = region ∨ p ∈ done → p ∈ f.regions)
include hl hf hplaced hapart hmem

theorem triple_memWrite_input :
    Triple (Sim.On d.layout fun m => d.Good m ∧ d.Written f done m)
      ((d.mem .dram0).write address (values.map d.arch.dataType.toFixed))
      (fun _ => Sim.On d.layout fun m => d.Good m ∧ d.Written f (done ++ [region]) m)
      (Sim.On d.layout fun _ => True) := by
  have hlength : ∀ {bytes : List UInt8},
      d.arch.dataType.toBytes (values.map d.arch.dataType.toFixed) = .ok bytes →
      bytes.length ≤ region.size.toNat * d.arch.rowBytes := by
    intro bytes hb
    rw [DataType.length_toBytes hb, List.length_map, Architecture.rowBytes, ← Nat.mul_assoc]
    exact Nat.mul_le_mul_right _ hf.fits
  have haddress : address.val.toNat * d.arch.units.scalarBytes.toNat =
      region.base.toNat * d.arch.rowBytes := by
    rw [← AddressUnits.scalar_eq_ok_iff.mp hf.start, toNat_scalarBytes, Nat.mul_assoc]
    rfl
  have hwrite : Triple (Sim.On d.layout fun m => d.Good m ∧ d.Written f done m)
      ((d.mem .dram0).write address (values.map d.arch.dataType.toFixed))
      (fun _ => Sim.On d.layout fun m => ∃ bytes,
        d.arch.dataType.toBytes (values.map d.arch.dataType.toFixed) = .ok bytes ∧
        d.Good m ∧ d.Primed f m ∧ d.Fed f done m ∧ d.banks.Shows
          (region.base.toNat * d.arch.rowBytes) bytes bytes.length m)
      (Sim.On d.layout fun _ => True) := by
    rw [hd.mem .dram0]
    refine Mem.triple_write (I := fun bytes n m => d.Good m ∧ d.Primed f m ∧ d.Fed f done m ∧
      d.banks.Shows (region.base.toNat * d.arch.rowBytes) bytes n m) (fun bytes hb => ⟨?_, ?_⟩)
      (fun _ _ => trivial) d.config.chunkSize.toNat_lt
    · change Fills _ (address.val.toNat * d.arch.units.scalarBytes.toNat) _ _ _
      rw [haddress]
      exact fills_input hd (hlength hb) hplaced hapart hmem
    · exact fun m hm => ⟨hm.1, hm.2.1, hm.2.2, Banks.shows_zero⟩
  refine hwrite.relax fun _ w hw => hw.mono ?_
  rintro m ⟨bytes, hb, hg, hp, hfed, hshows⟩
  refine ⟨hg, hp, fun p hpd => ?_⟩
  rcases List.mem_append.mp hpd with hpd | hpd
  · exact hfed p hpd
  · rw [List.mem_singleton.mp hpd]
    exact ⟨values, bytes, hl, hb, hlength hb, hshows⟩

theorem triple_writeInput :
    Triple (With d (Guarded d f fun m => d.Good m ∧ d.Written f done m))
      (write .dram0 address (values.map d.arch.dataType.toFixed))
      (fun _ => With d (Guarded d f fun m => d.Good m ∧ d.Written f (done ++ [region]) m))
      fun _ => True := by
  have hguarded : Triple (Guarded d f (d.Primed f))
      ((d.mem .dram0).write address (values.map d.arch.dataType.toFixed))
      (fun _ => Guarded d f (d.Primed f)) (Guarded d f d.banks.Ready) :=
    ((writable_primed hd).storable fun _ hw => hw.mono fun _ h => h.1).write
      fun _ hw => hw.mono fun _ h => h.1
  have hboth : Triple (Guarded d f fun m => d.Good m ∧ d.Written f done m)
      ((d.mem .dram0).write address (values.map d.arch.dataType.toFixed))
      (fun _ => Guarded d f fun m => d.Good m ∧ d.Written f (done ++ [region]) m)
      fun _ => True :=
    ((triple_memWrite_input hd hl hf hplaced hapart hmem).and hguarded).weaken
      (fun _ hw => ⟨hw.2, hw.mono fun _ h => h.2.1⟩) (fun _ _ hw => ⟨hw.2.1, hw.1⟩)
      fun _ _ => trivial
  exact (triple_accessWith (f := fun m => m.write address (values.map d.arch.dataType.toFixed))
    (fun _ _ => trivial) hboth).weaken (fun _ h => h) (fun _ _ h => h) fun _ _ => trivial

end Write

/-- Inputs are written one behind the other, and each of them stays while the others follow. -/
theorem triple_writeInputs
    (hplaced : ∀ p ∈ f.regions, p.base.toNat + p.size.toNat ≤ d.target.toNat)
    (hapart : f.regions.Pairwise Placement.Apart) :
    Triple (With d (Guarded d f fun m => d.Good m ∧ d.Written f [] m))
      (writeInputs f.inputs f.regions)
      (fun _ => With d (Guarded d f fun m => d.Good m ∧ d.Written f f.regions m))
      fun _ => True := by
  refine triple_feed (d := d)
    (J := fun done => With d (Guarded d f fun m => d.Good m ∧ d.Written f done m))
    (fun _ h hh => ⟨_, _, hh.1⟩) (fun _ _ _ => trivial)
    (fun done region rest address values hr hl hf => ?_) (List.nil_append _)
  rw [← hr, List.pairwise_append] at hapart
  have hmem : region ∈ f.regions := hr ▸ List.mem_append_right _ (List.mem_cons_self ..)
  refine triple_writeInput hd hl hf (hplaced region hmem)
    (fun p hp => hapart.2.2 p hp region (List.mem_cons_self ..)) ?_
  rintro p (rfl | hp)
  · exact hmem
  · exact hr ▸ List.mem_append_left _ hp

theorem triple_arm_written
    (hplaced : ∀ p ∈ f.regions, p.base.toNat + p.size.toNat ≤ d.target.toNat) :
    Triple (Over d (Guarded d f (d.Written f f.regions))) (onProbe (Probing.arm d.dram0))
      (fun _ => Over d (Guarded d f (d.Written f f.regions))) fun _ => True := by
  have hrows : ∀ {row : UInt64} {bytes : List UInt8}, d.target.toNat ≤ row.toNat →
      bytes.length = d.arch.rowBytes →
      Fills (d.banks.name .dram0) (row.toNat * d.arch.rowBytes) bytes
        (fun _ => d.Written f f.regions) fun _ => True := by
    refine fun hrow hl => fills_row hd hl fun p hp hcovers => ?_
    have hlt := hcovers.2
    have hle := hplaced p hp
    omega
  have hsource : d.target.toNat ≤ d.source.toNat := hd.toNat_source ▸ Nat.le_succ _
  have hguarded : Triple (Over d (Guarded d f (d.Primed f))) (onProbe (Probing.arm d.dram0))
      (fun _ => Over d (Guarded d f (d.Primed f))) (Over d (Guarded d f d.banks.Ready)) :=
    triple_probeOver (Probing.triple_armOver (fun _ hw => hw.mono fun _ h => h.1)
      ((writable_primed hd).storable fun _ hw => hw.mono fun _ h => h.1))
  refine Triple.strengthen (P := fun h => ∃ generation outstanding,
    With (d.probing generation outstanding) (Guarded d f (d.Written f f.regions)) h)
    (Triple.exists fun generation => Triple.exists fun outstanding => ?_) fun _ hs =>
      over_iff.mp hs
  have harm := triple_onProbe (triple_arm (d := d.probing generation outstanding) (hd.probing ..)
    (P := d.Written f f.regions) (I := fun _ _ => d.Written f f.regions)
    (J := fun _ _ _ => d.Written f f.regions)
    (fun bytes hb => ⟨hrows hsource hb.length, fun _ h => h⟩)
    (fun bytes zeros _ hz => ⟨hrows (Nat.le_refl _) hz.length, fun _ h => h⟩) fun _ _ => trivial)
  refine (harm.and hguarded).weaken (fun h hw => ?_) (fun _ h hw => ?_) fun _ _ => trivial
  · exact ⟨⟨hw.1, hw.2.2⟩, ⟨generation, outstanding, hw.1⟩, hw.2.mono fun _ hm => hm.1⟩
  · obtain ⟨⟨probe, _, hon⟩, hover, hw, _⟩ := hw
    refine ⟨hover, hw, hon.remote.mono ?_⟩
    rintro m ⟨_, _, _, _, hm⟩
    exact hm

theorem sends_written (hc : d.Considerate (.executeStream f.stream)) {probe : List UInt8}
    (hm : f.stream.length % d.layout.instructionBytes = 0)
    (hp : Tcu.assemble d.layout d.probe.instructions = .ok probe) :
    Sends d (f.stream ++ probe) (d.Written f f.regions) (d.Begins f) d.banks.Ready where
  ready m h := h.elim (·.1.1) fun h => h.elim (·.1) id
  beside m memory ha hb := by
    have hready : d.banks.Ready m → d.banks.Ready { m with memory } := fun h =>
      Banks.indifferent_ready m memory h (h.hold.beside hd.staging ha hb)
    have hfed : d.Fed f f.regions m → d.Fed f f.regions { m with memory } := fun h p hp =>
      (h p hp).beside hd hb
    refine ⟨fun h => ⟨h.1.memory (hready h.1.1).hold, hfed h.2⟩,
      fun h => ⟨hready h.1, fun hle => ?_⟩, hready⟩
    obtain ⟨program, rest, hprogram, hq, hcount, hs, hf⟩ := h.2 hle
    exact ⟨program, rest, hprogram, hq, hcount, hs, hfed hf⟩
  send m queued h hq := by
    obtain ⟨program, hprogram, rfl⟩ := instructions_probe hd hm hp hq
    obtain ⟨⟨⟨hold, aimed⟩, hs, hcounts⟩, hfed⟩ := h
    refine ⟨⟨⟨hold.arch, hold.cells, hold.apart, hold.extents⟩, aimed.append fun instr hi => ?_⟩,
      fun _ => ⟨program, m.device.queue, hprogram, rfl, hcounts, hs, hfed⟩⟩
    rcases List.mem_append.mp hi with hi | hi
    · exact (hc.supplied instr ⟨program, hprogram, hi⟩).2
    · exact not_configuresBank_probe instr hi
  wait := triple_written hd
  work := triple_begins hd
  keep := (Banks.steady_ready hd.fit).triple
  stop _ h := h.elim (·.1.1) (·.1)

/-- Whatever the unit does while a stream is sent and waited for, its program starts behind the
inputs. -/
theorem triple_executeStream_begins (hc : d.Considerate (.executeStream f.stream))
    (hplaced : ∀ p ∈ f.regions, p.base.toNat + p.size.toNat ≤ d.target.toNat) :
    Triple (Over d (Guarded d f (d.Written f f.regions))) (executeStream f.stream)
      (fun _ => Over d (Guarded d f (d.Begins f))) fun _ => True := by
  refine triple_executeStream (d := d) (R := Over d (Guarded d f (d.Written f f.regions)))
    (S := Over d (Guarded d f (d.Written f f.regions))) (T := Over d (Guarded d f (d.Begins f)))
    (fun _ hh => hh.elim (·.1) (·.1)) (fun _ _ => trivial) ?_ (triple_arm_written hd hplaced)
    (fun probe hm hp => ?_) ?_
  · have hready : ∀ w, Guarded d f (d.Written f f.regions) w → Guarded d f d.banks.Ready w :=
      fun _ hw => hw.mono fun _ h => h.1.1
    exact (triple_probeOver (Probing.triple_settleOver hready
      ((readable_written hd).loadable hready))).weaken (fun _ h => h) (fun _ _ h => h)
      fun _ _ => trivial
  · refine Triple.strengthen (P := fun h => ∃ generation outstanding,
      With (d.probing generation outstanding) (Guarded d f (d.Written f f.regions)) h)
      (Triple.exists fun generation => Triple.exists fun outstanding => ?_) fun _ hs =>
        over_iff.mp hs
    have hd' : (d.probing generation outstanding).Sound := hd.probing ..
    have hsends := sends_written hd' ⟨hc.target, hc.supplied⟩ hm hp
    have hsent : Triple (With (d.probing generation outstanding)
          (Guarded d f (d.Written f f.regions))) (dmaWrite (f.stream ++ probe))
        (fun _ => With (d.probing generation outstanding) (Guarded d f (d.Begins f)))
        fun _ => True :=
      (hsends.followed (F := fun _ => True) hd' (append_probe_ne_nil hd hp) follows_watched
        (fun m hm => hsends.stop m hm) (fun _ h hq => h.1.starts hq) (fun _ h _ => h.starts)
        (fun _ hw => ⟨hw.1, hw.2.mono fun m hm => hsends.stop m (.inl hm)⟩) (fun _ _ => trivial)
        Triple.top).weaken (fun _ h => h) (fun _ _ h => h) fun _ _ => trivial
    exact hsent.relax fun _ _ hs => over_iff.mpr ⟨generation, outstanding, hs⟩
  · have hready : ∀ w, Guarded d f (d.Begins f) w → Guarded d f d.banks.Ready w :=
      fun _ hw => hw.mono fun _ h => h.1
    exact (triple_probeOver (Probing.triple_waitOver hready
      ((readable_begins hd).loadable hready))).weaken (fun _ h => h) (fun _ _ h => h)
      fun _ _ => trivial

/-- A run that succeeds has waited for its program, which has thus started before it returns. -/
theorem triple_run {loaded : LoadedModel} (hp : d.Placed) (hl : d.loaded = some loaded)
    (hc : d.Considerate (.run f.inputs)) (hstream : f.stream = loaded.program)
    (hregions : f.regions = loaded.model.inputs) (hapart : f.regions.Pairwise Placement.Apart) :
    Triple (With d (Guarded d f fun m => d.Good m ∧ d.Written f [] m)) (run f.inputs)
      (fun _ h => Watched f.start (d.Starts f) h.remote ∧ f.count < h.device.executed)
      fun _ => True := by
  have hplaced : ∀ p ∈ f.regions, p.base.toNat + p.size.toNat ≤ d.target.toNat :=
    fun p hmem => hp.le_target hd hl (List.mem_append_left _ (hregions ▸ hmem))
  have hprogram : d.Considerate (.executeStream f.stream) :=
    hstream ▸ hc.part hd hp (.program hl)
  let past : Switch Simulator → Prop := fun w =>
    Watched f.start (d.Starts f) w ∧ Sim.On d.layout (fun m => f.count < m.device.executed) w
  have hexecute : Triple (With d (Guarded d f fun m => d.Good m ∧ d.Written f f.regions m))
      (executeStream loaded.program) (fun _ => Over d past) fun _ => True := by
    rw [← hstream]
    refine ((triple_executeStream_tame hd hprogram.tame f.count).and
      (triple_executeStream_begins hd hprogram hplaced)).weaken
      (fun h hw => ⟨⟨hw.1, hw.2.2.mono fun m hm => ⟨hm.1, hm.2.1.2.2⟩⟩,
        over_iff.mpr ⟨_, _, hw.1, hw.2.mono fun m hm => hm.2⟩⟩) ?_ fun _ _ => trivial
    rintro _ h ⟨⟨generation, htame⟩, hover, hwatched, hon⟩
    refine ⟨hover, hwatched, hon.plan, hon.remote.layout, ?_⟩
    have hdone := (htame.remote.remote.machine.2.2 rfl).2
    rw [hdone, Nat.add_assoc]
    exact Nat.lt_add_of_pos_right (Nat.succ_pos _)
  have hread : Triple (Over d past) (readOutputs [] loaded.model.outputs)
      (fun _ => Over d past) fun _ => True := by
    have hpast : ∀ part, d.Makes (.run f.inputs) part →
        KeepsOr (Over d past) (fun _ _ => False) (perform part) := fun part hpart =>
      keepsOr_of_calls (fun _ => keeps_watched_past fun m hm he => absurd he (Nat.ne_of_gt hm))
        (by cases hpart <;> trivial)
    exact (keepsOr_readOutputs (fun _ hh => hh.1) hpast).keeps.weaken (fun _ h => h)
      (fun _ _ h => h) fun _ _ => trivial
  let P := With d (Guarded d f fun m => d.Good m ∧ d.Written f [] m)
  refine Triple.bind (Q := fun _ => P) ?_ fun _ => ?_
  · exact Triple.bind (Q := fun _ => P) (Triple.view fun _ h => h) fun _ =>
      Triple.require (fun _ _ h => h) fun _ _ _ => trivial
  refine Triple.bind (Q := fun x h => x = d ∧ P h) (Triple.view fun h hh => ⟨hh.1, hh⟩)
    fun x => Triple.assume fun hx => ?_
  subst hx
  split
  · exact Triple.fail fun _ _ => trivial
  rename_i found hfound
  obtain rfl := Option.some.inj (hfound.symm.trans hl)
  rw [← hregions]
  refine (triple_writeInputs hd hplaced hapart).bind fun _ =>
    hexecute.bind fun _ => ?_
  exact hread.bind fun _ => Triple.pure fun _ hh => ⟨hh.2.1, hh.2.2.remote.machine⟩

end Run

end Driving

/-- A run computes from its own inputs, as long as nothing that is still queued writes into their
regions: it returns only once its program has started, and at that moment, when all that was queued
before has been executed, each input stands at the start of its region. -/
theorem run_from_inputs {h h' : Driving (Switch Simulator)} {loaded : LoadedModel}
    {inputs : Driving.Tensors} (hr : Reached Driver.Considerate h)
    (hopen : h.driver.closed = false) (hl : h.driver.loaded = some loaded)
    (hc : h.driver.Considerate (.run inputs))
    (hapart : loaded.model.inputs.Pairwise Placement.Apart)
    (hq : ∀ instr ∈ h.device.queue, Placement.Spared loaded.model.inputs instr)
    (hrun : (Driving.perform (.run inputs)).run h = (.ok (), h')) :
    ∃ program, Simulator.instructions h.driver.layout loaded.program = .ok program ∧
      (∃ m ∈ h.moments (.run inputs),
        m.device.executed = h.device.executed + h.device.queue.length) ∧
      ∀ m ∈ h.moments (.run inputs),
        m.device.executed = h.device.executed + h.device.queue.length →
        m.device.queue = program ++ h.driver.probe.instructions ∧
        ∀ region ∈ loaded.model.inputs, ∃ values, inputs.lookup region.name = some values ∧
          h.driver.scalars region.base values.length m =
            values.map h.driver.arch.dataType.toFixed := by
  obtain ⟨hd, hp, hon⟩ := hr.standing hopen
  let f : Feed := ⟨loaded.program, inputs, loaded.model.inputs,
    h.device.executed + h.device.queue.length, h.remote⟩
  have hstart : Driving.With h.driver
      (Driving.Guarded h.driver f fun m => h.driver.Good m ∧ h.driver.Written f [] m) h :=
    ⟨rfl, watched_refl, hon.remote.plan, hon.remote.remote.layout, hon.remote.remote.machine,
      ⟨hon.remote.remote.machine.1, hq, rfl⟩, nofun⟩
  have hperform : Triple (Driving.With h.driver
        (Driving.Guarded h.driver f fun m => h.driver.Good m ∧ h.driver.Written f [] m))
      (Driving.perform (.run inputs))
      (fun _ t => Watched h.remote (h.driver.Starts f) t.remote ∧
        f.count < t.remote.remote.device.executed)
      fun _ => True :=
    (Driving.triple_run hd hp hl hc rfl rfl hapart).bind fun _ => Triple.pure fun _ hh => hh
  obtain ⟨hwatched, hpast⟩ := hperform.ok hstart hrun
  obtain rfl : h.after (.run inputs) = h' := congrArg Prod.snd hrun
  obtain ⟨hreplay, hstarts⟩ := hwatched.callsSince
  rw [← hreplay] at hpast
  obtain ⟨start, hmoment, hturn⟩ := exists_replayMoment (Nat.le_add_right _ _) hpast
  obtain ⟨program, hprogram, _⟩ := hstarts start hmoment hturn
  refine ⟨program, hprogram, ⟨start, hmoment, hturn⟩, fun m hm he => ?_⟩
  obtain ⟨again, hagain, hqueue, hfed⟩ := hstarts m hm he
  obtain rfl : program = again := Except.ok.inj (hprogram.symm.trans hagain)
  exact ⟨hqueue, fun region hregion => (hfed region hregion).scalars⟩

section Small

def echo : Model where
  name := ""
  prog := ⟨"p", 1⟩
  consts := []
  inputs := [⟨"x", 0, 1⟩]
  outputs := [⟨"y", 0, 1⟩]
  arch := smallArch
  loadConstsToLocal := false

def echoText : String :=
  "[\"\", [\"p\", 1], [], [[\"x\", 0, 1]], [[\"y\", 0, 1]],
    [\"FP16BP8\", 1, 3, 1, 16, 1, 1, 1, 1, 1, 1]]"

def echoFiles : Files :=
  ⟨[(["m"], .file echoText.toUTF8.toList), (["p"], .file [0, 0, 0, 0])], []⟩

theorem readText_echo : echoFiles.readText? "m" = some echoText := by
  have hread : ∀ text program : List UInt8,
      (Files.mk [(["m"], .file text), (["p"], .file program)] []).read? "m" = some text := by
    intro text program
    cbv
  rw [Files.readText?, echoFiles, hread]
  decide +kernel

theorem read_echo : echoFiles.read? (Files.beside "m" echo.prog.fileName) = some [0, 0, 0, 0] := by
  have hread : ∀ text program : List UInt8,
      (Files.mk [(["m"], .file text), (["p"], .file program)] []).read? (Files.beside "m" "p") =
        some program := by
    intro text program
    cbv
  exact hread _ _

theorem parse_echo : Model.parse echoText = .ok echo := by
  cbv

def echoing (h : Driving (Switch Simulator)) : Driving (Switch Simulator) :=
  h.load ⟨echo, [0, 0, 0, 0], "m"⟩

theorem after_loadModel_echo {h : Driving (Switch Simulator)} (hd : h.driver.Sound)
    (hopen : h.driver.closed = false) (harch : h.driver.arch = smallArch) :
    h.after (.loadModel echoFiles "m") = echoing h := by
  refine congrArg Prod.snd (Driving.loadModel_run_of_consts_nil hopen readText_echo parse_echo
    harch.symm rfl ?_ read_echo ?_)
  · rw [Driver.target, hd.target, harch]
    decide
  · rw [hd.layout, harch]
    decide

section Echo

variable {h : Driving (Switch Simulator)} (hr : Reached Driver.Considerate h)
variable (hopen : h.driver.closed = false) (harch : h.driver.arch = smallArch)
include hr hopen harch

theorem reached_echoing : Reached Driver.Considerate (echoing h) :=
  after_loadModel_echo (hr.standing hopen).sound hopen harch ▸
    .perform hr ⟨fun _ hi => hi.elim, fun _ hi => hi.elim⟩

theorem supplied_echoing {inputs : Driving.Tensors} {instr : Instruction}
    (hi : (echoing h).driver.Supplies (.run inputs) instr) : instr = .noOp := by
  have hd := (hr.standing hopen).sound
  have hprogram : Simulator.instructions h.driver.layout [0, 0, 0, 0] = .ok [.noOp] := by
    rw [hd.layout, harch]
    decide +kernel
  obtain ⟨loaded, program, hl, hp, hmem⟩ := hi
  cases hl
  cases hprogram.symm.trans hp
  exact List.mem_singleton.mp hmem

theorem considerate_echoing (inputs : Driving.Tensors) :
    (echoing h).driver.Considerate (.run inputs) := by
  refine ⟨fun _ hi => hi.elim, fun instr hi => ?_⟩
  rw [supplied_echoing hr hopen harch hi]
  exact ⟨id, id⟩

end Echo

theorem considerate_executeProgram {d : Driver} {program : List Instruction}
    (hp : ∀ instr ∈ program, ¬ WritesDram0 instr d.target ∧ ¬ ConfiguresBank instr) :
    d.Considerate (.executeProgram program) :=
  ⟨fun _ hi => hi.elim, hp⟩

def unitInput : Driving.Tensors :=
  [("x", [⟨0x3ff0000000000000⟩])]

theorem run_from_inputs_echoing :
    ∃ h h' : Driving (Switch Simulator), ∃ loaded, Reached Driver.Considerate h ∧
      h.driver.closed = false ∧ h.driver.loaded = some loaded ∧
      h.driver.Considerate (.run unitInput) ∧ loaded.model.inputs.Pairwise Placement.Apart ∧
      h.device.queue.length = 3 ∧
      (∀ instr ∈ h.device.queue, Placement.Spared loaded.model.inputs instr) ∧
      (Driving.perform (.run unitInput)).run h = (.ok (), h') ∧
      ∃ program, Simulator.instructions h.driver.layout loaded.program = .ok program ∧
        (∃ m ∈ h.moments (.run unitInput),
          m.device.executed = h.device.executed + h.device.queue.length) ∧
        ∀ m ∈ h.moments (.run unitInput),
          m.device.executed = h.device.executed + h.device.queue.length →
          m.device.queue = program ++ h.driver.probe.instructions ∧
          ∀ region ∈ loaded.model.inputs, ∃ values, unitInput.lookup region.name = some values ∧
            h.driver.scalars region.base values.length m =
              values.map h.driver.arch.dataType.toFixed := by
  obtain ⟨start, hs⟩ := exists_smallStart
  have hfacts : ∀ h ∈ smallStart, (overdue h).driver.closed = false ∧
      (overdue h).driver.arch = smallArch ∧ (overdue h).driver.target = 1 ∧
      (overdue h).device.queue = [.noOp, (overdue h).driver.fetch, (overdue h).driver.carry] ∧
      ((Driving.perform (.run unitInput)).run (echoing (overdue h))).1 = .ok () := by
    decide +kernel
  obtain ⟨hopen, harch, htarget, hqueue, hok⟩ := hfacts start hs
  have hr : Reached Driver.Considerate (overdue start) :=
    .tune _ _ _ (.perform (.tune _ _ _ (reached_smallStart hs))
      (considerate_executeProgram fun instr hi => List.mem_singleton.mp hi ▸ ⟨id, id⟩))
  have hspared : ∀ instr ∈ (echoing (overdue start)).device.queue,
      Placement.Spared echo.inputs instr := by
    change ∀ instr ∈ (overdue start).device.queue, _
    rw [hqueue]
    intro instr hi row hw p hp hcovers
    rcases List.mem_cons.mp hi with rfl | hi
    · exact hw.elim
    rcases List.mem_cons.mp hi with rfl | hi
    · exact not_writesDram0_fetch hw
    rw [List.mem_singleton.mp hi] at hw
    obtain rfl : row = 1 := (writesDram0_carry_iff.mp hw).trans htarget
    rw [List.mem_singleton.mp hp] at hcovers
    exact absurd hcovers.2 (by decide)
  have hlen : (echoing (overdue start)).device.queue.length = 3 := congrArg List.length hqueue
  have hrun : (Driving.perform (.run unitInput)).run (echoing (overdue start)) =
      (.ok (), (echoing (overdue start)).after (.run unitInput)) := Prod.ext hok rfl
  have hreached := reached_echoing hr hopen harch
  have hc := considerate_echoing hr hopen harch unitInput
  exact ⟨_, _, _, hreached, hopen, rfl, hc, List.pairwise_singleton .., hlen, hspared, hrun,
    run_from_inputs hreached hopen rfl hc (List.pairwise_singleton ..) hspared hrun⟩

/-- The small unit behind a program that is overdue and writes the first row of DRAM0, with the
model loaded. -/
def overwriting (h : Driving (Switch Simulator)) : Driving (Switch Simulator) :=
  ((h.tune true none none).after (.executeProgram [.move .localToDram0 0 0 0])).tune false none none

/-- An earlier program that is still queued replaces the input of a run. -/
theorem run_from_overwritten :
    ∃ h h' : Driving (Switch Simulator), ∃ loaded, Reached Driver.Considerate h ∧
      h.driver.closed = false ∧ h.driver.loaded = some loaded ∧
      h.driver.Considerate (.run unitInput) ∧ loaded.model.inputs.Pairwise Placement.Apart ∧
      (Driving.perform (.run unitInput)).run h = (.ok (), h') ∧
      ∃ program, Simulator.instructions h.driver.layout loaded.program = .ok program ∧
        ∃ m ∈ h.moments (.run unitInput),
          m.device.queue = program ++ h.driver.probe.instructions ∧
          ∃ region ∈ loaded.model.inputs, ∃ values, unitInput.lookup region.name = some values ∧
            h.driver.scalars region.base values.length m ≠
              values.map h.driver.arch.dataType.toFixed := by
  obtain ⟨start, hs⟩ := exists_smallStart
  have hfacts : ∀ h ∈ smallStart, (overwriting h).driver.closed = false ∧
      (overwriting h).driver.arch = smallArch ∧ (h.tune true none none).driver.target = 1 ∧
      Simulator.instructions (echoing (overwriting h)).driver.layout [0, 0, 0, 0] = .ok [.noOp] ∧
      ((Driving.perform (.run unitInput)).run (echoing (overwriting h))).1 = .ok () ∧
      ∃ m ∈ (echoing (overwriting h)).moments (.run unitInput),
        m.device.queue = [.noOp] ++ (overwriting h).driver.probe.instructions ∧
        (echoing (overwriting h)).driver.scalars 0 1 m ≠
          [⟨0x3ff0000000000000⟩].map (echoing (overwriting h)).driver.arch.dataType.toFixed := by
    decide +kernel
  obtain ⟨hopen, harch, htarget, hprogram, hok, m, hm, hqueue, hscalars⟩ := hfacts start hs
  have hr : Reached Driver.Considerate (overwriting start) := by
    refine .tune _ _ _ (.perform (.tune _ _ _ (reached_smallStart hs))
      (considerate_executeProgram fun instr hi => ?_))
    rw [List.mem_singleton.mp hi, htarget]
    exact ⟨fun hw => absurd (writesDram0_move_iff.mp hw) (by decide), id⟩
  exact ⟨_, _, _, reached_echoing hr hopen harch, hopen, rfl, considerate_echoing hr hopen harch _,
    List.pairwise_singleton .., Prod.ext hok rfl, _, hprogram, m, hm, hqueue, _,
    List.mem_singleton_self _, _, rfl, hscalars⟩

end Small

end TensorUnit.Host
