import TensorUnit.Proofs.Host.Inputs
import TensorUnit.Proofs.Host.Refinement
import TensorUnit.Proofs.Sim.Rows

namespace TensorUnit.Host

open TensorUnit.Action (Triple Keeps KeepsOr)
open Remote Sim
open Tcu (Instruction)

structure Window where
  start : Nat
  length : Nat

def Window.Covers (w : Window) (i : Nat) : Prop :=
  w.start ≤ i ∧ i < w.start + w.length

def ConstRef.Covers (c : ConstRef) (row : UInt64) : Prop :=
  c.base.toNat ≤ row.toNat ∧ row.toNat < c.base.toNat + c.size.toNat

namespace Driver

variable (d : Driver) (files : Files) (path : String)

/-- The place of a constant in DRAM1, if its rows and its file pass the checks. -/
def window? (c : ConstRef) : Option Window := do
  let _ ← (d.arch.checkRows .dram1 c.base c.size).toOption
  let data ← files.read? (Files.beside path c.fileName)
  let offset ← (d.arch.units.rowBytes ⟨c.base⟩).toOption
  let _ ← (d.dram1.units.scalarOfBytes offset).toOption
  let _ ← (d.dram1.units.scalarOfBytes ⟨.ofNat data.length⟩).toOption
  let _ ← (d.dram1.check offset (.ofNat data.length)).toOption
  return ⟨offset.val.toNat, data.length⟩

/-- The places of the constants before the first one that does not pass. -/
def windows : List ConstRef → List Window
  | [] => []
  | c :: rest =>
    match d.window? files path c with
    | none => []
    | some w => w :: windows rest

/-- The constants that have rows, before the first one whose rows the scratchpad does not have. -/
def movable : List ConstRef → List ConstRef
  | [] => []
  | c :: rest =>
    if c.size = 0 then movable rest
    else
      match d.arch.checkRows .scratchpad c.base c.size with
      | .error _ => []
      | .ok _ => c :: movable rest

/-- Where the constants of a document are staged. -/
def staged : List Window :=
  match d.admits? files path with
  | none => []
  | some model => d.windows files path model.consts

/-- The constants of a document that are moved on into the scratchpad. None is before all are
staged. -/
def preloaded : List ConstRef :=
  match d.admits? files path with
  | none => []
  | some model =>
    if model.loadConstsToLocal ∧ ∀ c ∈ model.consts, (d.window? files path c).isSome then
      d.movable model.consts
    else []

theorem staged_eq {model : Model} (hm : d.admits? files path = some model) :
    d.staged files path = d.windows files path model.consts := by
  simp [staged, hm]

theorem preloaded_eq {model : Model} (hm : d.admits? files path = some model)
    (hload : model.loadConstsToLocal)
    (hall : ∀ c ∈ model.consts, (d.window? files path c).isSome) :
    d.preloaded files path = d.movable model.consts := by
  rw [preloaded, hm]
  exact if_pos ⟨hload, hall⟩

/-- A row of the scratchpad that belongs to some constants or to the probe. -/
def Touches (consts : List ConstRef) (row : UInt64) : Prop :=
  d.arch.localDepth - 1 ≤ row ∨ ∃ c ∈ consts, c.Covers row

def Preloads (consts : List ConstRef) (instr : Instruction) : Prop :=
  consts ≠ [] ∧ (instr ∈ d.probe.instructions ∨
    ∃ c ∈ consts, c.size ≠ 0 ∧ instr = .move .dram1ToLocal c.base c.base (c.size - 1))

/-- A machine that has its banks and differs from another in some windows of DRAM1, in the rows of
some constants and of the probe, and in DRAM0. What it has queued touches no more than that. -/
structure Loading (windows : List Window) (consts : List ConstRef) (s m : Machine) : Prop where
  hold : d.banks.Hold m
  registers : m.device.registers = s.device.registers
  dram1 : ∀ i, (∀ w ∈ windows, ¬ w.Covers i) →
    (d.banks.contents m .dram1)[i]? = (d.banks.contents s .dram1)[i]?
  scratchpad : ∀ row, ¬ d.Touches consts row → m.device.localRow row = s.device.localRow row
  accumulator : m.device.accumulator = s.device.accumulator
  queued : ∀ instr ∈ m.device.queue, d.Preloads consts instr

end Driver

section Machines

variable {d : Driver} (hd : d.Sound) {windows : List Window} {consts : List ConstRef}
  {s m : Machine} {instr : Instruction} {queue : List Instruction}
include hd

theorem Driver.Preloads.refilled (h : d.Preloads consts instr) (hold : d.banks.Hold m)
    (hl : d.banks.Finds m.device .dram0) :
    d.banks.Refilled (d.Touches consts) m ((Machine.execute instr).run m).2 := by
  obtain ⟨_, hprobe | ⟨c, hc, hsize, rfl⟩⟩ := h
  · rcases List.mem_cons.mp hprobe with rfl | hcarry
    · refine hold.refilled_of_fetches (fetches_move (k := .dram0) rfl rfl fun row hlo _ => .inl ?_)
      rw [hd.scratchpad] at hlo
      exact UInt64.le_iff_toNat_le.mpr hlo
    · rw [List.mem_singleton.mp hcarry]
      exact hold.refilled_store hd.fit hl
  · refine hold.refilled_of_fetches (fetches_move (k := .dram1) rfl rfl fun row hlo hhi =>
      .inr ⟨c, hc, hlo, ?_⟩)
    have hcount := toNat_sub_one hsize
    omega

omit hd in
theorem Driver.Loading.memory (h : d.Loading windows consts s m) {memory : Memory}
    (hold : d.banks.Hold { m with memory })
    (hb : ∀ i, (∀ w ∈ windows, ¬ w.Covers i) →
      (memory.bytes (d.banks.name .dram1))[i]? = (d.banks.contents m .dram1)[i]?) :
    d.Loading windows consts s { m with memory } :=
  ⟨hold, h.registers, fun i hi => (hb i hi).trans (h.dram1 i hi), h.scratchpad, h.accumulator,
    h.queued⟩

omit hd in
theorem Driver.Loading.enqueue (h : d.Loading windows consts s m) {queued : List Instruction}
    (hq : ∀ instr ∈ queued, d.Preloads consts instr) :
    d.Loading windows consts s { m with device := m.device.enqueue queued } :=
  ⟨⟨h.hold.arch, h.hold.cells, h.hold.apart, h.hold.extents⟩, h.registers, h.dram1, h.scratchpad,
    h.accumulator, fun instr hi => (List.mem_append.mp hi).elim (h.queued instr) (hq instr)⟩

variable (hfind : consts = [] ∨ d.banks.Finds s.device .dram0)
include hfind

/-- An instruction that is queued changes no more, be it executed or a fault. -/
theorem Driver.Loading.next (h : d.Loading windows consts s m)
    (hq : m.device.queue = instr :: queue) :
    d.Loading windows consts s ((Machine.execute instr).run (m.withQueue queue)).2 ∧
      d.banks.Refilled (d.Touches consts) (m.withQueue queue)
        ((Machine.execute instr).run (m.withQueue queue)).2 := by
  have hold : d.banks.Hold (m.withQueue queue) :=
    ⟨h.hold.arch, h.hold.cells, h.hold.apart, h.hold.extents⟩
  have hpre := h.queued instr (by simp [hq])
  have hl : d.banks.Finds (m.withQueue queue).device .dram0 :=
    (hfind.resolve_left hpre.1).congr h.registers
  have hr := hpre.refilled hd hold hl
  refine ⟨⟨hold.of_kept hr.kept, hr.registers.trans h.registers, fun i hi => ?_, fun row ho =>
    (hr.scratchpad row ho).trans (h.scratchpad row ho), hr.accumulator.trans h.accumulator,
    fun instr' hi => ?_⟩, hr⟩
  · exact (congrArg (·[i]?) (hr.memory _ hd.fit.names.symm)).trans (h.dram1 i hi)
  · rw [hr.kept.queue] at hi
    exact h.queued instr' (hq ▸ List.mem_cons_of_mem _ hi)

theorem keeps_loading_and {K : Machine → Prop}
    (hK : ∀ m t : Machine, K m → t.memory.extents = m.memory.extents →
      (∀ name, name ≠ d.banks.name .dram0 → t.memory.bytes name = m.memory.bytes name) → K t) :
    Keeps (fun m => d.Loading windows consts s m ∧ K m) Machine.executeNext := by
  apply Machine.triple_executeNext
  · exact fun _ h _ => h
  · rintro m instr queue t ⟨h, hk⟩ hq hr
    obtain ⟨hnext, hrefilled⟩ := h.next hd hfind hq
    rw [hr] at hnext hrefilled
    obtain ⟨hold, registers, dram1, scratchpad, accumulator, queued⟩ := hnext
    exact ⟨⟨⟨hold.arch, hold.cells, hold.apart, hold.extents⟩, registers, dram1, scratchpad,
      accumulator, queued⟩, hK m _ hk hrefilled.kept.extents hrefilled.memory⟩
  · rintro m instr queue f t ⟨h, hk⟩ hq hr
    obtain ⟨hnext, hrefilled⟩ := h.next hd hfind hq
    rw [hr] at hnext hrefilled
    obtain ⟨hold, registers, dram1, scratchpad, accumulator, _⟩ := hnext
    exact ⟨⟨⟨hold.arch, hold.cells, hold.apart, hold.extents⟩, registers, dram1, scratchpad,
      accumulator, fun _ hi => nomatch hi⟩, hK m _ hk hrefilled.kept.extents hrefilled.memory⟩

theorem keeps_loading : Keeps (d.Loading windows consts s) Machine.executeNext :=
  (keeps_loading_and hd hfind (K := fun _ => True) fun _ _ _ _ _ => trivial).weaken
    (fun _ h => ⟨h, trivial⟩) (fun _ _ h => h.1) fun _ h => h.1

theorem triple_loading_has {name : String} (hn : name ≠ d.banks.name .dram0) {bytes : List UInt8} :
    Triple (fun m => d.Loading windows consts s m ∧ m.memory.Has name bytes) Machine.executeNext
      (fun _ m => d.Loading windows consts s m ∧ m.memory.Has name bytes)
      (d.Loading windows consts s) :=
  (keeps_loading_and hd hfind fun _ _ hhas he hb =>
    ⟨(Memory.region?_isSome_congr he name).trans hhas.1, (hb name hn).trans hhas.2⟩).weaken
    (fun _ h => h) (fun _ _ h => h) fun _ h => h.1

theorem fills_loading {w : Window} (hw : w ∈ windows) {data : List UInt8}
    (hn : data.length = w.length) :
    Fills (d.banks.name .dram1) w.start data (fun _ => d.Loading windows consts s)
      (d.Loading windows consts s) where
  write n chunk position m h hle _ ho _ hfit := by
    rw [← ho] at hfit
    refine h.memory (h.hold.write ..) fun i hi => ?_
    have hout : ¬ (position.toNat ≤ i ∧ i < position.toNat + chunk.length) := by
      intro hin
      exact hi w hw ⟨by omega, by omega⟩
    rw [Memory.bytes_write hfit, if_pos rfl, getElem?_splice hfit, if_neg hout]
    rfl
  step _ := keeps_loading hd hfind
  stop _ _ h := h
  small _ m h := h.hold.apart.length_bytes_lt _

end Machines

namespace Driving

section Loads

variable {d : Driver} (hd : d.Sound) {windows : List Window} {consts : List ConstRef} {s : Machine}
variable (hfind : consts = [] ∨ d.banks.Finds s.device .dram0)
variable {files : Files} {path : String}
include hd hfind

theorem triple_writeConst {c : ConstRef} {data : List UInt8} {offset : ByteOffset}
    (hrows : d.arch.checkRows .dram1 c.base c.size = .ok ())
    (hfile : files.read? (Files.beside path c.fileName) = some data)
    (hoffset : d.arch.units.rowBytes ⟨c.base⟩ = .ok offset)
    (hw : ∀ w, d.window? files path c = some w → w ∈ windows) :
    Triple (Over d (Sim.On d.layout (d.Loading windows consts s))) (writeBytes .dram1 offset data)
      (fun _ h => (d.window? files path c).isSome ∧
        Over d (Sim.On d.layout (d.Loading windows consts s)) h)
      (Over d (Sim.On d.layout (d.Loading windows consts s))) := by
  have hmem := hd.mem .dram1
  have hbytes : Triple (Sim.On d.layout (d.Loading windows consts s))
      (d.dram1.writeBytes offset data)
      (fun _ w => (d.window? files path c).isSome ∧
        Sim.On d.layout (d.Loading windows consts s) w)
      (Sim.On d.layout (d.Loading windows consts s)) := by
    refine Triple.bind (triple_ofSpec (Q := fun address w =>
      d.dram1.units.scalarOfBytes offset = .ok address ∧ Sim.On d.layout _ w)
      (fun _ _ hr hw => ⟨hr, hw⟩) fun _ hw => hw) fun address => Triple.assume fun ha => ?_
    refine Triple.bind (triple_ofSpec (Q := fun length w =>
      d.dram1.units.scalarOfBytes ⟨.ofNat data.length⟩ = .ok length ∧ Sim.On d.layout _ w)
      (fun _ _ hr hw => ⟨hr, hw⟩) fun _ hw => hw) fun length => Triple.assume fun hl => ?_
    refine Triple.bind (Triple.ofExcept (Q := fun _ w =>
      d.dram1.check offset (.ofNat data.length) = .ok () ∧ Sim.On d.layout _ w)
      (fun _ _ hr hw => ⟨hr, hw⟩) fun _ hw => hw) fun _ => Triple.assume fun hc => ?_
    have hwindow : d.window? files path c = some ⟨offset.val.toNat, data.length⟩ := by
      simp [Driver.window?, hrows, hfile, hoffset, ha, hl, hc, Except.toOption]
    have hfills : Fills d.dram1.name offset.val.toNat data (fun _ => d.Loading windows consts s)
        (d.Loading windows consts s) := by
      rw [show d.dram1.name = d.banks.name .dram1 from congrArg Mem.name hmem]
      exact fills_loading hd hfind (hw _ hwindow) rfl
    have hchunk : d.dram1.chunkSize < 2 ^ 64 := by
      rw [show d.dram1.chunkSize = _ from congrArg Mem.chunkSize hmem]
      exact d.config.chunkSize.toNat_lt
    apply (triple_writeChunked hfills hchunk).bind
    intro _
    exact Triple.pure fun _ hw => ⟨by simp [hwindow], hw⟩
  have hover : Triple (Over d (Sim.On d.layout (d.Loading windows consts s)))
      (writeBytes .dram1 offset data)
      (fun _ => Over d fun w => (d.window? files path c).isSome ∧
        Sim.On d.layout (d.Loading windows consts s) w)
      (Over d (Sim.On d.layout (d.Loading windows consts s))) :=
    triple_over fun _ _ => triple_accessWith (f := fun m => m.writeBytes offset data)
      (fun _ h => h) hbytes
  exact hover.relax fun _ _ h => ⟨h.2.1, h.1, h.2.2⟩

omit hd hfind in
theorem triple_readFile {σ : Type} {P : Driving σ → Prop} :
    Triple P (readFile files path : Act σ (List UInt8))
      (fun data h => files.read? path = some data ∧ P h) P := by
  unfold readFile
  split
  · exact Triple.pure fun _ h => ⟨‹_›, h⟩
  · exact Triple.fail fun _ h => h

theorem triple_stageConsts {refs : List ConstRef}
    (hw : ∀ w ∈ d.windows files path refs, w ∈ windows) :
    Triple (Over d (Sim.On d.layout (d.Loading windows consts s))) (stageConsts files path refs)
      (fun _ h => (∀ c ∈ refs, (d.window? files path c).isSome) ∧
        Over d (Sim.On d.layout (d.Loading windows consts s)) h)
      (Over d (Sim.On d.layout (d.Loading windows consts s))) := by
  induction refs with
  | nil => exact Triple.pure fun _ h => ⟨by simp, h⟩
  | cons c rest ih =>
    apply triple_driverOver
    intro generation outstanding
    refine Triple.bind (triple_ofSpec (Q := fun _ h =>
      d.arch.checkRows .dram1 c.base c.size = .ok () ∧ Over d _ h)
      (fun _ _ hr hh => ⟨hr, hh⟩) fun _ hh => hh) fun _ => Triple.assume fun hrows => ?_
    refine triple_readFile.bind fun data => Triple.assume fun hfile => ?_
    refine Triple.bind (triple_ofSpec (Q := fun offset h =>
      d.arch.units.rowBytes ⟨c.base⟩ = .ok offset ∧ Over d _ h)
      (fun _ _ hr hh => ⟨hr, hh⟩) fun _ hh => hh) fun offset => Triple.assume fun hoffset => ?_
    have hhead : ∀ w, d.window? files path c = some w → w ∈ windows :=
      fun w he => hw w (by simp [Driver.windows, he])
    apply (triple_writeConst hd hfind hrows hfile hoffset hhead).bind
    intro _
    apply Triple.assume
    intro hc
    obtain ⟨w, he⟩ := Option.isSome_iff_exists.mp hc
    have hrest : ∀ w ∈ d.windows files path rest, w ∈ windows :=
      fun w hm => hw w (by simp [Driver.windows, he, hm])
    exact (ih hrest).relax fun _ _ ⟨hall, hh⟩ => ⟨by simpa [he] using hall, hh⟩

theorem submits_loading {stream : List UInt8} (hs : ∀ queued,
    Simulator.instructions d.layout stream = .ok queued → ∀ instr ∈ queued, d.Preloads consts instr)
    (generation : Nat) (outstanding : Bool) :
    Submits (d.probing generation outstanding) stream (d.Loading windows consts s)
      (d.Loading windows consts s) (d.Loading windows consts s) (d.Loading windows consts s) where
  apart m h := (h.elim id fun h => h.elim id id).hold.apart
  beside m memory ha hb := by
    have hkeep : d.Loading windows consts s m → d.Loading windows consts s { m with memory } :=
      fun h => h.memory (h.hold.beside hd.staging ha hb) fun i _ =>
        congrArg (·[i]?) (hb.bytes (hd.staging .dram1))
    exact ⟨hkeep, hkeep, hkeep⟩
  send m queued h hq := h.enqueue (hs queued hq)
  wait bytes := triple_loading_has hd hfind (hd.staging .dram0).symm
  work := keeps_loading hd hfind
  keep := keeps_loading hd hfind
  stop _ h := h
  fail _ h := h
  leak _ h _ := h

theorem keeps_executeProgram_loading {program : List Instruction}
    (hp : ∀ instr ∈ program, d.Preloads consts instr) (hne : consts ≠ []) :
    Keeps (Over d (Sim.On d.layout (d.Loading windows consts s))) (executeProgram program) := by
  have hn : Keeps (d.Loading windows consts s) Machine.executeNext := keeps_loading hd hfind
  have hI : ∀ h : Driving (Switch Simulator),
      Over d (Sim.On d.layout (d.Loading windows consts s)) h → _ := fun _ h => h.1
  have hname : d.dram0.name = d.banks.name .dram0 := congrArg Mem.name (hd.mem .dram0)
  have hwritable : Writable (Sim.On d.layout (d.Loading windows consts s))
      (Sim.On d.layout (d.Loading windows consts s)) d.dram0.name := by
    refine writable_on hn fun m offset data h => h.memory (h.hold.write ..) fun i _ => ?_
    have hbeside := Memory.beside_write m.memory d.dram0.name offset data
    exact congrArg (·[i]?) (hbeside.bytes (hname ▸ hd.fit.names.symm))
  refine KeepsOr.keeps (keepsOr_assemble hI fun stream hs => keepsOr_executeStream
    (hwritable.storable fun _ h => h)
    ((readable_on hn).loadable fun _ h => h) fun probe hm hprobe =>
      Keeps.or (Submits.keeps (submits_loading hd hfind ?_)))
  intro queued hq instr hi
  obtain ⟨moves, hmoves, rfl⟩ := instructions_probe hd hm hprobe hq
  cases hmoves.symm.trans (Simulator.instructions_assemble hd.whole hs).1
  rcases List.mem_append.mp hi with hi | hi
  · exact hp instr hi
  · exact ⟨hne, .inl hi⟩

theorem triple_loadConsts {c : ConstRef} (hc : c.size ≠ 0 →
    d.arch.checkRows .scratchpad c.base c.size = .ok () → c ∈ consts) :
    Triple (Over d (Sim.On d.layout (d.Loading windows consts s))) (loadConsts ⟨c.base⟩ c.size)
      (fun _ h => (c.size ≠ 0 → d.arch.checkRows .scratchpad c.base c.size = .ok ()) ∧
        Over d (Sim.On d.layout (d.Loading windows consts s)) h)
      (Over d (Sim.On d.layout (d.Loading windows consts s))) := by
  unfold loadConsts
  split
  · rename_i hz
    exact Triple.pure fun _ h => ⟨fun hne => absurd hz hne, h⟩
  · rename_i hne
    apply triple_driverOver
    intro generation outstanding
    refine Triple.bind (triple_ofSpec (Q := fun _ => Over d _) (fun _ _ _ hh => hh) fun _ hh => hh)
      fun _ => ?_
    refine Triple.bind (triple_ofSpec (Q := fun _ h =>
      d.arch.checkRows .scratchpad c.base c.size = .ok () ∧ Over d _ h)
      (fun _ _ hr hh => ⟨hr, hh⟩) fun _ hh => hh) fun _ => Triple.assume fun hrows => ?_
    have hmem := hc hne hrows
    have hprogram : ∀ instr ∈ [Instruction.move .dram1ToLocal c.base c.base (c.size - 1)],
        d.Preloads consts instr := by
      intro instr hi
      exact ⟨List.ne_nil_of_mem hmem, .inr ⟨c, hmem, hne, List.mem_singleton.mp hi⟩⟩
    refine Triple.bind (Q := fun _ => Over d _)
      (keeps_executeProgram_loading hd hfind hprogram (List.ne_nil_of_mem hmem)) fun _ => ?_
    exact Triple.pure fun _ h => ⟨fun _ => hrows, h⟩

theorem keeps_loadAllConsts {refs : List ConstRef} (hm : ∀ c ∈ d.movable refs, c ∈ consts) :
    Keeps (Over d (Sim.On d.layout (d.Loading windows consts s))) (loadAllConsts refs) := by
  induction refs with
  | nil => exact Keeps.pure
  | cons c rest ih =>
    refine (triple_loadConsts hd hfind fun hne hrows => hm c ?_).bind fun _ => Triple.assume
      fun hrows => ih fun c' hc' => hm c' ?_
    · simp [Driver.movable, hne, hrows]
    · by_cases hz : c.size = 0
      · simpa [Driver.movable, hz] using hc'
      · simp [Driver.movable, hz, hrows hz, hc']

omit hfind in
/-- A model that is not refused is loaded within the windows and the rows of its constants. -/
theorem keeps_transferModel {model : Model} {layout : Tcu.Layout}
    (hm : d.admits? files path = some model)
    (hfind : d.preloaded files path = [] ∨ d.banks.Finds s.device .dram0) :
    Keeps (Over d (Sim.On d.layout (d.Loading (d.staged files path) (d.preloaded files path) s)))
      (transferModel files path layout model) := by
  refine (triple_stageConsts hd hfind fun w hw => Driver.staged_eq d files path hm ▸ hw).bind
    fun _ => Triple.assume fun hall => ?_
  have hrest : Keeps (Over d (Sim.On d.layout
      (d.Loading (d.staged files path) (d.preloaded files path) s))) (do
        let program ← readFile files (Files.beside path model.prog.fileName)
        Action.require (program.length % layout.instructionBytes = 0)
          (.decode (.truncated program.length layout.instructionBytes))
        return ⟨model, program, path⟩ : Act (Switch Simulator) LoadedModel) :=
    (triple_readFile.relax fun _ _ h => h.2).bind fun _ => Keeps.bind Keeps.require fun _ =>
      Keeps.pure
  split
  · rename_i hload
    have hmoved := Driver.preloaded_eq d files path hm hload hall
    exact (keeps_loadAllConsts hd hfind fun c hc => hmoved ▸ hc).bind fun _ => hrest
  · exact hrest

end Loads

end Driving

theorem Driving.Held.loading {h : Driving (Switch Simulator)} (hh : h.Held)
    (hq : h.device.queue = []) (windows : List Window) (consts : List ConstRef) :
    Driving.Over h.driver
      (Sim.On h.driver.layout (h.driver.Loading windows consts h.machine)) h := by
  obtain ⟨_, hon⟩ := hh
  refine ⟨⟨_, _, rfl⟩, hon.remote.plan, hon.remote.remote.layout, hon.remote.remote.machine, rfl,
    fun _ _ => rfl, fun _ _ => rfl, rfl, fun instr hi => ?_⟩
  exact absurd (hq ▸ hi) List.not_mem_nil

/-- A load that fails leaves the model that was loaded before. Of DRAM1 it changes no byte but those
of constants that passed the checks, and of the scratchpad, below the row of the probe, no row but
those of constants that are moved there; that is, of none unless all constants are staged. A unit
that moves constants must find DRAM0 for that, where the probe is stored behind them. -/
theorem loadModel_failed {h h' : Driving (Switch Simulator)} (hr : Reached (fun _ _ => True) h)
    (hq : h.device.queue = []) {files : Files} {path : String} {e : DriverError}
    (hrun : (Driving.loadModel files path).run h = (.error e, h')) :
    h'.driver.loaded = h.driver.loaded ∧
      (h.driver.preloaded files path = [] ∨
          h.device.register .dram0AddressOffset = h.driver.offsets.dram0 →
        (∀ i, (∀ w ∈ h.driver.staged files path, ¬ w.Covers i) →
          (h.driver.banks.contents h'.machine .dram1)[i]? =
            (h.driver.banks.contents h.machine .dram1)[i]?) ∧
        ∀ row < h.driver.arch.localDepth - 1,
          (∀ c ∈ h.driver.preloaded files path, ¬ c.Covers row) →
            h'.device.localRow row = h.device.localRow row) := by
  refine ⟨Driving.loaded_of_loadModel_error hrun, fun hfind => ?_⟩
  by_cases hclosed : h.Closed
  · obtain rfl : h = h' :=
      (Driving.after_closed hclosed (.loadModel files path)).symm.trans (congrArg Prod.snd hrun)
    exact ⟨fun _ _ => rfl, fun _ _ _ => rfl⟩
  · have hheld := hr.held.resolve_left hclosed
    have hopen : h.driver.closed = false := Bool.eq_false_iff.mpr hclosed
    have hprepare := Driving.prepareModel_run_of_error hrun
    obtain ⟨_, e', hrefused⟩ | ⟨model, hm, htransfer⟩ := Driving.prepareModel_run files path hopen
    · cases hrefused.symm.trans hprepare
      exact ⟨fun _ _ => rfl, fun _ _ _ => rfl⟩
    · obtain ⟨_, hafter⟩ := (Driving.keeps_transferModel hheld.1 hm hfind).error
        (hheld.loading hq _ _) (htransfer.symm.trans hprepare)
      have hloading := hafter.remote.machine
      refine ⟨hloading.dram1, fun row hrow hout => ?_⟩
      refine hloading.scratchpad row ?_
      rintro (hle | ⟨c, hc, hcovers⟩)
      · exact absurd hrow (UInt64.not_lt.mpr hle)
      · exact hout c hc hcovers

section Small

def weighed : Model where
  name := ""
  prog := ⟨"p", 1⟩
  consts := [⟨"c", 0, 1⟩]
  inputs := []
  outputs := []
  arch := smallArch
  loadConstsToLocal := true

def weighedText : String :=
  "[\"\", [\"p\", 1], [[\"c\", 0, 1]], [], [], [\"FP16BP8\", 1, 3, 1, 16, 1, 1, 1, 1, 1, 1], true]"

def weighedFiles (const program : List UInt8) : Files :=
  ⟨[(["m"], .file weighedText.toUTF8.toList), (["c"], .file const), (["p"], .file program)],
    []⟩

variable {const program : List UInt8}

theorem read_weighedFiles :
    (weighedFiles const program).read? "m" = some weighedText.toUTF8.toList ∧
      (weighedFiles const program).read? (Files.beside "m" "c") = some const ∧
      (weighedFiles const program).read? (Files.beside "m" "p") = some program := by
  unfold weighedFiles
  -- the text of the document is left as it is while the names are compared
  generalize weighedText.toUTF8.toList = text
  refine ⟨?_, ?_, ?_⟩
  · cbv
  · cbv
  · cbv

theorem readText_weighed : (weighedFiles const program).readText? "m" = some weighedText := by
  rw [Files.readText?, read_weighedFiles.1]
  decide +kernel

theorem parse_weighed : Model.parse weighedText = .ok weighed := by
  cbv

def weigh (const program : List UInt8) (layout : Tcu.Layout) :
    Driving.Act (Switch Simulator) LoadedModel := do
  let arch := (← Driving.getDriver).arch
  ofSpec (arch.checkRows .dram1 0 1)
  Driving.writeBytes .dram1 (← ofSpec (arch.units.rowBytes ⟨0⟩)) const
  Driving.loadConsts ⟨0⟩ 1
  Action.require (program.length % layout.instructionBytes = 0)
    (.decode (.truncated program.length layout.instructionBytes))
  return ⟨weighed, program, "m"⟩

theorem transferModel_weighed (const program : List UInt8) (layout : Tcu.Layout) :
    Driving.transferModel (weighedFiles const program) "m" layout weighed =
      weigh const program layout := by
  have hconst : (Driving.readFile (weighedFiles const program) (Files.beside "m" "c") :
      Driving.Act (Switch Simulator) _) = pure const := by
    simp only [Driving.readFile, read_weighedFiles.2.1]
  have hprogram : (Driving.readFile (weighedFiles const program) (Files.beside "m" "p") :
      Driving.Act (Switch Simulator) _) = pure program := by
    simp only [Driving.readFile, read_weighedFiles.2.2]
  simp only [Driving.transferModel, weigh, weighed, Driving.stageConsts, Driving.loadAllConsts,
    hconst, hprogram, if_true, bind_assoc, pure_bind]

def reload (const program : List UInt8) : Driving.Act (Switch Simulator) Unit := do
  let loaded ← weigh const program (← Driving.getDriver).layout
  Driving.setLoaded (some loaded)

section Weighed

variable {h : Driving (Switch Simulator)} (harch : h.driver.arch = smallArch)
include harch

theorem admits?_weighed : h.driver.admits? (weighedFiles const program) "m" = some weighed :=
  Driver.admits?_eq_some readText_weighed parse_weighed harch.symm rfl

theorem loadModel_weighed (hopen : h.driver.closed = false) :
    (Driving.loadModel (weighedFiles const program) "m").run h = (reload const program).run h := by
  rw [Driving.loadModel_run, Driving.prepareModel_run_of_admits? hopen (admits?_weighed harch),
    transferModel_weighed]
  change _ = ((weigh const program h.driver.layout) >>= _).run h
  rw [Action.bind_run]
  rcases (weigh const program h.driver.layout).run h with ⟨_ | _, _⟩ <;> rfl

variable (hmem : h.driver.dram1.units = smallArch.units) (hsize : h.driver.dram1.sizeBytes = 6)
include hmem hsize

theorem window?_weighed (hconst : const.length = 2) :
    h.driver.window? (weighedFiles const program) "m" ⟨"c", 0, 1⟩ = some ⟨0, 2⟩ := by
  have hrows : h.driver.arch.units.rowBytes ⟨0⟩ = .ok ⟨0⟩ := by rw [harch]; rfl
  have hcheck : h.driver.arch.checkRows .dram1 0 1 = .ok () := by rw [harch]; rfl
  have hoffset : h.driver.dram1.units.scalarOfBytes ⟨0⟩ = .ok ⟨0⟩ := by rw [hmem]; rfl
  have hlength : h.driver.dram1.units.scalarOfBytes ⟨2⟩ = .ok ⟨1⟩ := by rw [hmem]; rfl
  have hfit : h.driver.dram1.check ⟨0⟩ 2 = .ok () := by rw [Mem.check, hsize]; rfl
  simp [Driver.window?, hrows, hcheck, read_weighedFiles.2.1, hoffset, hconst, hlength, hfit,
    Except.toOption]

theorem staged_weighed (hconst : const.length = 2) :
    h.driver.staged (weighedFiles const program) "m" = [⟨0, 2⟩] := by
  simp [Driver.staged, admits?_weighed harch, weighed, Driver.windows,
    window?_weighed harch hmem hsize hconst]

theorem preloaded_weighed (hconst : const.length = 2) :
    h.driver.preloaded (weighedFiles const program) "m" = [⟨"c", 0, 1⟩] := by
  have hrows : h.driver.arch.checkRows .scratchpad 0 1 = .ok () := by rw [harch]; rfl
  simp [Driver.preloaded, admits?_weighed harch, weighed, Driver.movable, hrows,
    window?_weighed harch hmem hsize hconst]

end Weighed

def weighing (h : Driving (Switch Simulator)) : Driving (Switch Simulator) :=
  ((reload [1, 0] [0, 0, 0, 0]).run h).2

theorem reached_weighing {h : Driving (Switch Simulator)} (hr : Reached (fun _ _ => True) h)
    (harch : h.driver.arch = smallArch) (hopen : h.driver.closed = false) :
    Reached (fun _ _ => True) (weighing h) := by
  have hafter : h.after (.loadModel (weighedFiles [1, 0] [0, 0, 0, 0]) "m") = weighing h :=
    congrArg Prod.snd (loadModel_weighed harch hopen)
  exact hafter ▸ .perform hr trivial

/-- With the model loaded, it is loaded again from other files: the constant is another one, and the
program is not a whole number of instructions. -/
theorem reload_weighing : ∃ h h' : Driving (Switch Simulator), ∃ e,
    Reached (fun _ _ => True) h ∧ h.device.queue = [] ∧ h.driver.probe.outstanding = false ∧
      h.driver.loaded.isSome ∧
      (Driving.loadModel (weighedFiles [2, 0] [0]) "m").run h = (.error e, h') ∧
      h.device.register .dram0AddressOffset = h.driver.offsets.dram0 ∧
      h.driver.staged (weighedFiles [2, 0] [0]) "m" = [⟨0, 2⟩] ∧
      h.driver.preloaded (weighedFiles [2, 0] [0]) "m" = [⟨"c", 0, 1⟩] ∧
      h.driver.banks.contents h.machine .dram1 = [1, 0, 0, 0, 0, 0] ∧
      h.driver.banks.contents h'.machine .dram1 = [2, 0, 0, 0, 0, 0] ∧
      h.device.localRow 0 = [1] ∧ h'.device.localRow 0 = [2] := by
  obtain ⟨start, hs⟩ := exists_smallStart
  have hfacts : ∀ h ∈ smallStart, (h.driver.arch = smallArch ∧ h.driver.closed = false) ∧
      (weighing h).driver.arch = smallArch ∧ (weighing h).driver.closed = false ∧
      (weighing h).driver.dram1.units = smallArch.units ∧
      (weighing h).driver.dram1.sizeBytes = 6 ∧ (weighing h).device.queue = [] ∧
      (weighing h).driver.probe.outstanding = false ∧ (weighing h).driver.loaded.isSome ∧
      (weighing h).device.register .dram0AddressOffset = (weighing h).driver.offsets.dram0 ∧
      (weighing h).driver.banks.contents (weighing h).machine .dram1 = [1, 0, 0, 0, 0, 0] ∧
      (weighing h).device.localRow 0 = [1] ∧
      ((reload [2, 0] [0]).run (weighing h)).1.isOk = false ∧
      (weighing h).driver.banks.contents ((reload [2, 0] [0]).run (weighing h)).2.machine .dram1 =
        [2, 0, 0, 0, 0, 0] ∧
      ((reload [2, 0] [0]).run (weighing h)).2.device.localRow 0 = [2] := by
    decide +kernel
  obtain ⟨⟨ha, ho⟩, harch, hopen, hmem, hsize, hq, hout, hl, hreg, hbytes, hrow, hfail, hbytes',
    hrow'⟩ := hfacts start hs
  obtain ⟨e, h', hrun⟩ := exists_of_run_error hfail
  rw [hrun] at hbytes' hrow'
  exact ⟨weighing start, h', e, reached_weighing (reached_smallStart hs) ha ho, hq, hout, hl,
    (loadModel_weighed harch hopen).trans hrun, hreg, staged_weighed harch hmem hsize rfl,
    preloaded_weighed harch hmem hsize rfl, hbytes, hbytes', hrow, hrow'⟩

theorem loadModel_failed_weighing : ∃ h h' : Driving (Switch Simulator), ∃ e,
    Reached (fun _ _ => True) h ∧ h.device.queue = [] ∧ h.driver.loaded.isSome ∧
      (Driving.loadModel (weighedFiles [2, 0] [0]) "m").run h = (.error e, h') ∧
      h.device.register .dram0AddressOffset = h.driver.offsets.dram0 ∧
      h.driver.staged (weighedFiles [2, 0] [0]) "m" = [⟨0, 2⟩] ∧
      h.driver.preloaded (weighedFiles [2, 0] [0]) "m" = [⟨"c", 0, 1⟩] ∧
      h'.driver.loaded = h.driver.loaded ∧
      (∀ i, (∀ w ∈ h.driver.staged (weighedFiles [2, 0] [0]) "m", ¬ w.Covers i) →
        (h.driver.banks.contents h'.machine .dram1)[i]? =
          (h.driver.banks.contents h.machine .dram1)[i]?) ∧
      ∀ row < h.driver.arch.localDepth - 1,
        (∀ c ∈ h.driver.preloaded (weighedFiles [2, 0] [0]) "m", ¬ c.Covers row) →
          h'.device.localRow row = h.device.localRow row := by
  obtain ⟨h, h', e, hr, hq, _, hl, hrun, hreg, hstaged, hmoved, _⟩ := reload_weighing
  obtain ⟨hloaded, hframe⟩ := loadModel_failed hr hq hrun
  exact ⟨h, h', e, hr, hq, hl, hrun, hreg, hstaged, hmoved, hloaded, hframe (.inr hreg)⟩

/-- The small unit with the model loaded, after it has been told that DRAM0 starts where DRAM1
does. -/
def astray (h : Driving (Switch Simulator)) : Driving (Switch Simulator) :=
  ((weighing h).after (.writeBytes .dram1 ⟨4⟩ [7, 0])).after
    (.writeInstructions [.configure .dram0AddressOffset 1])

/-- Behind constants that are moved, the probe is stored where the unit takes DRAM0 to be. -/
theorem reload_astray : ∃ h h' : Driving (Switch Simulator), ∃ e,
    Reached (fun _ _ => True) h ∧ h.device.queue = [] ∧ h.driver.probe.outstanding = false ∧
      h.driver.loaded.isSome ∧
      (Driving.loadModel (weighedFiles [1, 0] [0, 0, 0, 0]) "m").run h = (.error e, h') ∧
      h.driver.staged (weighedFiles [1, 0] [0, 0, 0, 0]) "m" = [⟨0, 2⟩] ∧
      h.driver.banks.contents h.machine .dram1 = [1, 0, 0, 0, 7, 0] ∧
      h.driver.banks.contents h'.machine .dram1 = [1, 0, 7, 0, 7, 0] := by
  obtain ⟨start, hs⟩ := exists_smallStart
  have hfacts : ∀ h ∈ smallStart, (h.driver.arch = smallArch ∧ h.driver.closed = false) ∧
      (astray h).driver.arch = smallArch ∧ (astray h).driver.closed = false ∧
      (astray h).driver.dram1.units = smallArch.units ∧ (astray h).driver.dram1.sizeBytes = 6 ∧
      (astray h).device.queue = [] ∧ (astray h).driver.probe.outstanding = false ∧
      (astray h).driver.loaded.isSome ∧
      (astray h).driver.banks.contents (astray h).machine .dram1 = [1, 0, 0, 0, 7, 0] ∧
      ((reload [1, 0] [0, 0, 0, 0]).run (astray h)).1.isOk = false ∧
      (astray h).driver.banks.contents ((reload [1, 0] [0, 0, 0, 0]).run (astray h)).2.machine
        .dram1 = [1, 0, 7, 0, 7, 0] := by
    decide +kernel
  obtain ⟨⟨ha, ho⟩, harch, hopen, hmem, hsize, hq, hout, hl, hbytes, hfail, hbytes'⟩ :=
    hfacts start hs
  obtain ⟨e, h', hrun⟩ := exists_of_run_error hfail
  rw [hrun] at hbytes'
  exact ⟨astray start, h', e, .perform (.perform (reached_weighing (reached_smallStart hs) ha ho)
    trivial) trivial, hq, hout, hl, (loadModel_weighed harch hopen).trans hrun,
    staged_weighed harch hmem hsize rfl, hbytes, hbytes'⟩

/-- The constants of a model that is not loaded in the end are staged and moved all the same, in the
place of those of the model that stays loaded; and a unit that does not find DRAM0 stores the probe
between them. -/
theorem loadModel_failed_spoils :
    (∃ h h' : Driving (Switch Simulator), ∃ files path e, Reached (fun _ _ => True) h ∧
      h.device.queue = [] ∧ h.driver.probe.outstanding = false ∧ h.driver.loaded.isSome ∧
      (Driving.loadModel files path).run h = (.error e, h') ∧
      h.driver.banks.contents h'.machine .dram1 ≠ h.driver.banks.contents h.machine .dram1 ∧
      h'.device.localRow 0 ≠ h.device.localRow 0) ∧
    ∃ h h' : Driving (Switch Simulator), ∃ files path e, Reached (fun _ _ => True) h ∧
      h.device.queue = [] ∧ h.driver.probe.outstanding = false ∧ h.driver.loaded.isSome ∧
      (Driving.loadModel files path).run h = (.error e, h') ∧
      ∃ i, (∀ w ∈ h.driver.staged files path, ¬ w.Covers i) ∧
        (h.driver.banks.contents h'.machine .dram1)[i]? ≠
          (h.driver.banks.contents h.machine .dram1)[i]? := by
  constructor
  · obtain ⟨h, h', e, hr, hq, hout, hl, hrun, _, _, _, hbytes, hbytes', hrow, hrow'⟩ :=
      reload_weighing
    refine ⟨h, h', _, _, e, hr, hq, hout, hl, hrun, ?_, ?_⟩
    · simp [hbytes, hbytes']
    · simp [hrow, hrow']
  · obtain ⟨h, h', e, hr, hq, hout, hl, hrun, hstaged, hbytes, hbytes'⟩ := reload_astray
    refine ⟨h, h', _, _, e, hr, hq, hout, hl, hrun, 2, ?_, ?_⟩
    · simp [hstaged, Window.Covers]
    · simp [hbytes, hbytes']

end Small

end TensorUnit.Host
