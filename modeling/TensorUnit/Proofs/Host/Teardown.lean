import TensorUnit.Proofs.Host.Errors
import TensorUnit.Proofs.Host.Upkeep

namespace TensorUnit

open TensorUnit.Action (Triple Keeps KeepsOr Raises)
open Remote

namespace Sim

/-- The states of an instance, whatever it is asked to do. -/
inductive Simulator.Used : Simulator → Prop where
  | start {arch : Architecture} {config : Config} {s : Simulator}
      (sim_ok : ofArchitecture arch config = .ok s) : Used s
  | up {s : Simulator} (used : Used s) : Used (Service.up.run s).2
  | down {s : Simulator} (used : Used s) : Used (Service.down.run s).2
  | execute {s : Simulator} (batch : Batch) (used : Used s) :
      Used ((Simulator.execute batch).run s).2
  | tune {s : Simulator} (config : Config) (used : Used s) : Used { s with config }

structure Simulator.Bare (s : Simulator) : Prop where
  buffers : s.memory.regions = []
  channels : s.channels = []
  queue : s.device.queue = []

theorem Simulator.bare_tornDown (s : Simulator) : s.tornDown.Bare :=
  ⟨rfl, rfl, rfl⟩

theorem Simulator.bare_ofArchitecture {arch : Architecture} {config : Config} {s : Simulator}
    (h : ofArchitecture arch config = .ok s) : s.Bare := by
  obtain ⟨_, hdevice, _, hregions⟩ := Host.blank_ofArchitecture h
  obtain ⟨_, _, h⟩ := exists_of_bind_ok h
  obtain ⟨_, _, h⟩ := exists_of_bind_ok h
  obtain ⟨_, _, h⟩ := exists_of_bind_ok h
  exact ⟨hregions, by cases h; rfl, congrArg Device.queue hdevice⟩

theorem Simulator.Used.bare {s : Simulator} (h : s.Used) (hd : s.up = false) : s.Bare := by
  induction h with
  | start sim_ok => exact bare_ofArchitecture sim_ok
  | up => cases hd
  | down => exact bare_tornDown _
  | @execute s batch _ ih =>
    have hs : s.up = false := by
      cases hup : s.up with
      | false => rfl
      | true => rw [(keeps_up_execute batch).state hup] at hd; cases hd
    have hr : (Simulator.execute batch).run s = (.error .notUp, s) := by
      rw [Simulator.execute, Action.bind_run, Action.view_run]
      change ((Action.require s.up .notUp >>= _ : Act _).run s) = _
      rw [hs]
      rfl
    rw [hr]
    exact ih hs
  | tune config _ ih => exact ⟨(ih hd).buffers, (ih hd).channels, (ih hd).queue⟩

end Sim

namespace Host

open Sim
open Tcu (Instruction)

def Downable (w : Switch Simulator) : Prop :=
  w.plan.down = none

def Gone (w : Switch Simulator) : Prop :=
  w.remote.Bare ∧ w.remote.up = false

theorem keeps_downable {batch : Batch} :
    Keeps Downable (execute batch : Action (Switch Simulator) RemoteError _) := by
  have hthrough : ∀ {α : Type} (a : Action Simulator RemoteError α),
      Keeps Downable (Switch.through a) := by
    intro α a w hw
    rw [through_run]
    cases (a.run w.remote).1 <;> exact hw
  change Keeps Downable (Switch.send batch)
  refine Keeps.bind (fun _ hw => hw) fun (interference : Option Interference) => ?_
  cases interference with
  | none => exact hthrough _
  | some i =>
    cases i with
    | fail error => exact Keeps.fail
    | answer responses => exact (hthrough _).bind fun _ => Keeps.pure

theorem triple_goDown :
    Triple Downable (down : Action (Switch Simulator) RemoteError Unit) (fun _ => Gone) Gone := by
  change Triple _ (Switch.refusable FaultPlan.down down) _ _
  refine Triple.bind (Q := fun refusal _ => refusal = none) (Triple.view fun _ h => h)
    fun (refusal : Option RemoteError) => ?_
  rintro w rfl
  exact ⟨w.remote.bare_tornDown, rfl⟩

theorem triple_tearDown {α : Type} {e : DriverError} {Q : α → Switch Simulator → Prop} :
    Triple Downable (Driver.tearDown e) Q Gone :=
  (Triple.tried triple_goDown).bind fun _ => Triple.fail fun _ h => h

theorem triple_allocateOrGone {config : Config} {size : UInt64} :
    Triple Downable (Driver.allocate config size) (fun _ => Downable) Gone := by
  refine Triple.bind (Triple.tried keeps_downable) fun outcome => ?_
  cases outcome with
  | error e => exact triple_tearDown
  | ok responses =>
    dsimp only
    split
    · exact Triple.pure fun _ h => h
    · exact triple_tearDown

namespace Driving

/-- To close an open driver takes the instance down, whatever comes of the releases. -/
theorem triple_closeOrGone {d : Driver} (hd : d.closed = false) :
    Triple (fun h : Driving (Switch Simulator) => h.driver = d ∧ Downable h.remote) close
      (fun _ h => Gone h.remote) fun h => Gone h.remote := by
  have hdown : Triple (fun h => Shut d h ∧ Downable h.remote)
      (onRemote ((down : Action (Switch Simulator) RemoteError Unit).mapError .remote))
      (fun _ h => Gone h.remote) fun h => Gone h.remote :=
    (triple_shut_onRemote (Triple.mapError triple_goDown)).weaken (fun _ h => h)
      (fun _ _ h => h.2) fun _ h => h.2
  refine Triple.bind (Q := fun e h => e = d ∧ h.driver = d ∧ Downable h.remote)
    (Triple.view fun h hs => ⟨hs.1, hs⟩) fun e => Triple.assume fun he => ?_
  rw [he, if_neg (by rw [hd]; decide)]
  refine Triple.bind (Q := fun _ h => Shut d h ∧ Downable h.remote)
    (Triple.update fun h hs => ⟨⟨none, by rw [← hs.1]⟩, hs.2⟩) fun _ => ?_
  refine (triple_shut_releaseAll none fun _ _ => keeps_downable).bind fun first => ?_
  refine Triple.bind (Triple.tried hdown) fun torn => ?_
  cases first with
  | some e => exact Keeps.fail
  | none => exact Keeps.ofExcept

theorem keeps_configureDownable {d : Driver} {registers : List (Tcu.Register × UInt64)} :
    Keeps (Over d Downable) (configure registers : Act (Switch Simulator) Nat) := by
  have hI : ∀ h : Driving (Switch Simulator), Over d Downable h → _ := fun _ h => h.1
  have hw : ∀ buffer, Storable Downable Downable buffer := fun _ =>
    Writable.storable (fun _ h => h) fun _ _ => keeps_downable
  have hr : ∀ m, Loadable Downable Downable m := fun _ =>
    Readable.loadable (fun _ h => h) fun _ _ => keeps_downable
  apply KeepsOr.keeps
  unfold configure executeProgram
  refine keepsOr_assemble hI fun stream _ => ?_
  refine keepsOr_executeStream (hw _) (hr _) fun probe _ _ => ?_
  exact (keeps_dmaWrite (fun _ => keeps_downable) (hw _) keeps_downable keeps_downable).or

end Driving

/-- A driver that cannot be configured is closed. -/
theorem triple_configureNewOrGone {d : Driver} (hd : d.closed = false) :
    Triple Downable d.configureNew (fun _ _ => True) Gone := by
  intro w hw
  have hover : Driving.Over d Downable ⟨d, w⟩ :=
    ⟨⟨d.probe.generation, d.probe.outstanding, rfl⟩, hw⟩
  rw [configureNew_run]
  have hconfigure : Keeps (Driving.Over d Downable)
      (Driving.configure d.registers : Driving.Act (Switch Simulator) Nat) :=
    Driving.keeps_configureDownable
  have hs := hconfigure.state hover
  cases hr : (Driving.configure d.registers).run ⟨d, w⟩ with
  | mk r h =>
    rw [hr] at hs
    cases r with
    | ok polls => trivial
    | error e =>
      obtain ⟨⟨generation, outstanding, hdriver⟩, hremote⟩ := hs
      have hclosed : h.driver.closed = false := by
        rw [hdriver]
        exact hd
      exact (Driving.triple_closeOrGone hclosed).state ⟨rfl, hremote⟩

/-- An instance on which making a driver has failed: it holds nothing, and it is down, unless the
size of the buffers was what failed. -/
def Abandoned (arch : Architecture) (e : DriverError) (w : Switch Simulator) : Prop :=
  w.remote.Bare ∧ (w.remote.up = false ∨ Driver.bufferSize arch = .error e)

def Fresh (w : Switch Simulator) : Prop :=
  Downable w ∧ w.remote.Bare

theorem triple_goUp :
    Triple (fun w => Downable w ∧ Gone w) (up : Action (Switch Simulator) RemoteError Unit)
      (fun _ => Fresh) Gone := by
  change Triple _ (Switch.refusable FaultPlan.up up) _ _
  refine Triple.bind (Q := fun _ w => Downable w ∧ Gone w) (Triple.view fun _ h => h)
    fun (refusal : Option RemoteError) => ?_
  cases refusal with
  | some error => exact Triple.fail fun _ h => h.2
  | none =>
    exact fun w h => ⟨h.1, h.2.1.buffers, h.2.1.channels, h.2.1.queue⟩

theorem Gone.abandoned {arch : Architecture} {e : DriverError} {w : Switch Simulator} (h : Gone w) :
    Abandoned arch e w :=
  ⟨h.1, .inl h.2⟩

theorem raises_of_triple {α : Type} {arch : Architecture} {P : Switch Simulator → Prop}
    {a : Action (Switch Simulator) DriverError α} {Q : α → Switch Simulator → Prop}
    (h : Triple P a Q Gone) : Raises P (Abandoned arch) a :=
  fun _ _ _ hs hr => (h.error hs hr).abandoned

/-- Each step that makes a driver either leaves the instance as it was or tears it down. -/
theorem raises_new {arch : Architecture} {config : Config} :
    Raises (fun w => Downable w ∧ Gone w) (Abandoned arch) (Driver.new arch config) := by
  have hcheck : ∀ {α β : Type} {r : Except DriverError α}
      {f : α → Action (Switch Simulator) DriverError β},
      (∀ x, Raises (fun w => Downable w ∧ Gone w) (Abandoned arch) (f x)) →
        Raises (fun w => Downable w ∧ Gone w) (Abandoned arch) (Action.ofExcept r >>= f) :=
    fun hf => Raises.bind Keeps.ofExcept (Raises.ofExcept fun _ _ _ h => h.2.abandoned) hf
  refine hcheck fun _ => hcheck fun layout => hcheck fun probe => Raises.view fun w _ => ?_
  refine hcheck fun _ => Raises.bind (Triple.mapError triple_goUp)
    (raises_of_triple (Triple.mapError triple_goUp)) fun _ => ?_
  refine Raises.bind (Q := fun _ => Fresh) (Triple.ofExcept (fun _ _ _ h => h) fun _ h => h)
    (Raises.ofExcept fun _ _ he h => ⟨h.2, .inr he⟩) fun size => ?_
  have hallocate : Triple Downable (Driver.allocate config size) (fun _ => Downable) Gone :=
    triple_allocateOrGone
  refine Raises.weaken (Raises.bind hallocate (raises_of_triple hallocate) fun addresses => ?_)
    (fun _ h => h.1) fun _ _ h => h
  exact raises_of_triple (triple_configureNewOrGone rfl)

/-- A driver that cannot be made on an instance that is down leaves it down and empty, whatever
happens to the calls, provided that the instance can go down. It is empty at any rate; it stays up
only where the size of the buffers is what fails. -/
theorem torn_down_of_failed {w w' : Switch Simulator} (used : w.remote.Used)
    (is_down : w.remote.up = false) (downs : w.plan.down = none) {arch : Architecture}
    {config : Config} {e : DriverError} (failed : (Driver.new arch config).run w = (.error e, w')) :
    w'.remote.memory.regions = [] ∧ w'.remote.channels = [] ∧ w'.remote.device.queue = [] ∧
      (w'.remote.up = false ∨ Driver.bufferSize arch = .error e) := by
  obtain ⟨⟨hb, hc, hq⟩, hup⟩ := raises_new w e w' ⟨downs, used.bare is_down, is_down⟩ failed
  exact ⟨hb, hc, hq, hup⟩

section Small

def smallFailure (config : Sim.Config) (plan : FaultPlan) (arch : Architecture) :
    Option (Simulator × DriverError × Switch Simulator) :=
  match Simulator.ofArchitecture smallArch config with
  | .error _ => none
  | .ok sim =>
    let config := { Config.default with flush := ⟨.zero, .zero⟩ }
    match (Driver.new arch config).run (Switch.ofPlan sim plan) with
    | (.ok _, _) => none
    | (.error e, w) => some (sim, e, w)

theorem smallFailure_eq_some {config : Sim.Config} {plan : FaultPlan} {arch : Architecture}
    {sim : Simulator} {e : DriverError} {w : Switch Simulator}
    (h : smallFailure config plan arch = some (sim, e, w)) :
    sim.Used ∧ sim.up = false ∧
      (Driver.new arch { Config.default with flush := ⟨.zero, .zero⟩ }).run
        (Switch.ofPlan sim plan) = (.error e, w) := by
  unfold smallFailure at h
  split at h
  · cases h
  · rename_i sim' hs
    dsimp only at h
    split at h
    · cases h
    · rename_i hr
      cases h
      refine ⟨.start hs, ?_, hr⟩
      obtain ⟨_, _, hs⟩ := exists_of_bind_ok hs
      obtain ⟨_, _, hs⟩ := exists_of_bind_ok hs
      obtain ⟨_, _, hs⟩ := exists_of_bind_ok hs
      cases hs
      rfl

def stalled : Sim.Config :=
  { Sim.Config.default with baseAddress := 0, stall := true }

/-- The first flush times out on a unit that is stalled, and then the first release fails too. -/
def unreleasable : FaultPlan :=
  ⟨[(8, .fail .notUp)], none, none⟩

theorem torn_down_of_failed_stalled :
    ∃ sim e w, smallFailure stalled unreleasable smallArch = some (sim, e, w) ∧
      e = .synchronizationTimeout 1 ∧ w.log.length = 11 ∧
      w.remote.memory.regions = [] ∧ w.remote.channels = [] ∧ w.remote.device.queue = [] ∧
      (w.remote.up = false ∨ Driver.bufferSize smallArch = .error e) := by
  obtain ⟨⟨sim, e, w⟩, hs⟩ : ∃ x, smallFailure stalled unreleasable smallArch = some x :=
    Option.isSome_iff_exists.mp (by decide +kernel)
  have hfacts : ∀ x ∈ smallFailure stalled unreleasable smallArch,
      x.2.1 = .synchronizationTimeout 1 ∧ x.2.2.log.length = 11 := by decide +kernel
  obtain ⟨he, hlog⟩ := hfacts _ hs
  obtain ⟨used, is_down, failed⟩ := smallFailure_eq_some hs
  exact ⟨sim, e, w, hs, he, hlog, torn_down_of_failed (w := Switch.ofPlan sim unreleasable) used
    is_down rfl failed⟩

def overgrown : Architecture :=
  { smallArch with dram0Depth := 0x8000000000000000 }

theorem left_up_by_overgrown :
    ¬ ∀ (w w' : Switch Simulator) (arch : Architecture) (config : Config) (e : DriverError),
      w.remote.Used → w.remote.up = false → w.plan.down = none →
        (Driver.new arch config).run w = (.error e, w') → w'.remote.up = false := by
  intro h
  obtain ⟨⟨sim, e, w⟩, hs⟩ : ∃ x, smallFailure stalled ⟨[], none, none⟩ overgrown = some x :=
    Option.isSome_iff_exists.mp (by decide +kernel)
  have hfacts : ∀ x ∈ smallFailure stalled ⟨[], none, none⟩ overgrown,
      x.2.2.remote.up = true := by decide +kernel
  obtain ⟨used, is_down, failed⟩ := smallFailure_eq_some hs
  have hup := h (Switch.ofPlan sim ⟨[], none, none⟩) w _ _ _ used is_down rfl failed
  rw [hfacts _ hs] at hup
  cases hup

end Small

end Host

end TensorUnit
