import TensorUnit.Proofs.Host.Harmless
import TensorUnit.Proofs.Host.Setup

namespace TensorUnit.Host

open TensorUnit.Action (Triple Keeps)
open Remote Sim
open Tcu (Instruction)

namespace Driving

variable (h : Driving (Switch Simulator))

def machine : Machine :=
  h.remote.remote.machine

def device : Device :=
  h.remote.remote.device

def tune (stall : Bool) (instructionsPerCall failBufferWriteAt : Option Nat) :
    Driving (Switch Simulator) :=
  { h with
    remote.remote.config.stall := stall
    remote.remote.config.instructionsPerCall := instructionsPerCall
    remote.remote.config.failBufferWriteAt := failBufferWriteAt }

/-- From here on other calls fail, and the waits have time for other numbers of polls. -/
def replan (plan : FaultPlan) (clock : Clock) : Driving (Switch Simulator) :=
  { h with remote := (h.remote.replan plan).timed clock }

variable {h} {d : Driver} {P : Machine → Prop}

theorem On.tune (ho : On d P h) (stall : Bool)
    (instructionsPerCall failBufferWriteAt : Option Nat) :
    On d P (h.tune stall instructionsPerCall failBufferWriteAt) :=
  ⟨ho.driver, ho.remote.plan, ho.remote.remote.layout, ho.remote.remote.machine⟩

theorem On.replan (ho : On d P h) {plan : FaultPlan} (fails : OnlyFails plan) (clock : Clock) :
    On d P (h.replan plan clock) :=
  ⟨ho.driver, fails, ho.remote.remote.layout, ho.remote.remote.machine⟩

end Driving

/-- The states of a driver that is new or has made operations of a certain kind. -/
inductive Reached (A : Driver → Operation → Prop) : Driving (Switch Simulator) → Prop where
  | new {arch : Architecture} {config : Config} {simConfig : Sim.Config} {sim : Simulator}
      {plan : FaultPlan} {clock : Clock} {d : Driver} {w : Switch Simulator}
      (sim_ok : Simulator.ofArchitecture arch simConfig = .ok sim) (fails : OnlyFails plan)
      (new_ok : (Driver.new arch config).run ((Switch.ofPlan sim plan).timed clock) = (.ok d, w)) :
      Reached A ⟨d, w⟩
  | perform {h : Driving (Switch Simulator)} {op : Operation} (reached : Reached A h)
      (allowed : A h.driver op) : Reached A (h.after op)
  | tune {h : Driving (Switch Simulator)} (stall : Bool)
      (instructionsPerCall failBufferWriteAt : Option Nat) (reached : Reached A h) :
      Reached A (h.tune stall instructionsPerCall failBufferWriteAt)
  | replan {h : Driving (Switch Simulator)} {plan : FaultPlan} (fails : OnlyFails plan)
      (clock : Clock) (reached : Reached A h) : Reached A (h.replan plan clock)

theorem Reached.mono {A B : Driver → Operation → Prop} (hAB : ∀ d op, A d op → B d op)
    {h : Driving (Switch Simulator)} (hr : Reached A h) : Reached B h := by
  induction hr with
  | new sim_ok fails new_ok => exact .new sim_ok fails new_ok
  | perform _ allowed ih => exact .perform ih (hAB _ _ allowed)
  | tune _ _ _ _ ih => exact .tune _ _ _ ih
  | replan fails clock _ ih => exact .replan fails clock ih

/-- In every state that harmless operations lead to, flushes can be trusted. -/
theorem Reached.good {h : Driving (Switch Simulator)} (hr : Reached Driver.Harmless h) :
    h.driver.Sound ∧ Driving.On h.driver h.driver.Good h := by
  induction hr with
  | new sim_ok fails new_ok =>
    have hblank := blank_ofArchitecture sim_ok
    obtain ⟨hd, _, _, _, _, hon⟩ := triple_new.ok ⟨fails, hblank⟩ new_ok
    exact ⟨hd, hon.mono fun m hm => ⟨hm.1, false, hm.2.mono Driver.tail_of_empty⟩⟩
  | @perform h op _ allowed ih =>
    obtain ⟨hd, hon⟩ := ih
    have hany : Driving.OnAny h.driver Driver.Good (h.after op) :=
      Triple.state (safe_perform hd allowed) hon
    obtain ⟨generation, outstanding, hany⟩ := hany
    rw [hany.driver]
    exact ⟨hd.probing .., hany⟩
  | tune _ _ _ _ ih => exact ⟨ih.1, ih.2.tune ..⟩
  | replan fails clock _ ih => exact ⟨ih.1, ih.2.replan fails clock⟩

/-- The number of instructions that an operation sends and waits for, beside the probe. -/
def Operation.awaited? (layout : Tcu.Layout) : Operation → Option Nat
  | .executeStream stream => some (stream.length / layout.instructionBytes)
  | .executeProgram program => some program.length
  | .flush => some 0
  | .configure registers => some registers.length
  | _ => none

section Await

variable {d : Driver} (hd : d.Sound)
include hd

theorem triple_awaitProgram {program : List Instruction} (ht : d.Tame program) (c : Nat) :
    Triple (Driving.On d fun m => d.Good m ∧ Counts c m) (Driving.executeProgram program)
      (fun _ h => h.device.queue = [] ∧ h.device.executed = c + program.length + 2)
      fun _ => True := by
  apply Driving.triple_executeProgram (fun _ _ => trivial)
  intro stream hs
  refine (triple_executeStream_tame hd (ht.stream hd hs) c).weaken (fun _ h => h) ?_
    fun _ _ => trivial
  rintro _ h ⟨generation, hon⟩
  have hm := hon.remote.remote.machine.2.2 rfl
  rwa [length_assemble hd hs] at hm

theorem triple_await {op : Operation} (h : d.Harmless op) {n : Nat}
    (hn : op.awaited? d.layout = some n) (c : Nat) :
    Triple (Driving.On d fun m => d.Good m ∧ Counts c m) (Driving.perform op)
      (fun _ h => h.device.queue = [] ∧ h.device.executed = c + n + 2) fun _ => True := by
  have hstream : ∀ stream, d.TameStream stream →
      Triple (Driving.On d fun m => d.Good m ∧ Counts c m)
        (do let _ ← Driving.executeStream stream)
        (fun _ h => h.device.queue = [] ∧
          h.device.executed = c + stream.length / d.layout.instructionBytes + 2)
        fun _ => True := by
    intro stream ht
    refine ((triple_executeStream_tame hd ht c).weaken (fun _ h => h) ?_
      fun _ _ => trivial).bind fun _ => Triple.pure fun _ h => h
    rintro _ h ⟨generation, hon⟩
    exact hon.remote.remote.machine.2.2 rfl
  cases op with
  | executeStream stream =>
    cases hn
    exact hstream stream h
  | flush =>
    cases hn
    have hflush := hstream [] (tameStream_nil d)
    rwa [List.length_nil, Nat.zero_div] at hflush
  | executeProgram program =>
    cases hn
    exact (triple_awaitProgram hd h c).bind fun _ => Triple.pure fun _ h => h
  | configure registers =>
    cases hn
    have hprogram := triple_awaitProgram hd h c
    rw [List.length_map] at hprogram
    exact hprogram.bind fun _ => Triple.pure fun _ h => h
  | write | writeBytes | read | compare | dmaWrite | writeInstructions | loadConsts | loadModel
  | run | close => cases hn

end Await

/-- An operation that waits and succeeds leaves an empty queue: the instructions that were queued
when it started, its own and the two of the probe have all been executed in the meantime. -/
theorem queue_drained {h h' : Driving (Switch Simulator)} {op : Operation} {n : Nat}
    (hr : Reached Driver.Harmless h) (hop : h.driver.Harmless op)
    (hn : op.awaited? h.driver.layout = some n)
    (hrun : (Driving.perform op).run h = (.ok (), h')) :
    h'.device.queue = [] ∧
      h'.device.executed = h.device.executed + h.device.queue.length + n + 2 := by
  obtain ⟨hd, hon⟩ := hr.good
  have hcount : Driving.On h.driver (fun m => h.driver.Good m ∧
      Counts (h.device.executed + h.device.queue.length) m) h :=
    ⟨rfl, hon.remote.plan, hon.remote.remote.layout, hon.remote.remote.machine, rfl⟩
  exact (triple_await hd hop hn _).ok hcount hrun

section Small

/-- A unit whose rows are single scalars. -/
def smallArch : Architecture where
  dataType := .fp16bp8
  arraySize := 1
  dram0Depth := 3
  dram1Depth := 1
  localDepth := 16
  accumulatorDepth := 1
  simdRegistersDepth := 1
  stride0Depth := 1
  stride1Depth := 1
  numberOfThreads := 1
  threadQueueDepth := 1

/-- A driver that is made with some settings, on an instance that takes every call, if nothing
fails. -/
def startWith (arch : Architecture) (config : Config) : Option (Driving (Switch Simulator)) :=
  match Simulator.ofArchitecture arch { Sim.Config.default with baseAddress := 0 } with
  | .error _ => none
  | .ok sim =>
    match (Driver.new arch config).run (Switch.ofPlan sim ⟨[], none, none⟩) with
    | (.error _, _) => none
    | (.ok d, w) => some ⟨d, w⟩

/-- A driver of the small unit that polls ten times at most. -/
def smallStart : Option (Driving (Switch Simulator)) :=
  startWith smallArch { Config.default with flush := ⟨⟨0, 10000⟩, .zero⟩ }

theorem exists_of_startWith {arch : Architecture} {config : Config}
    {h : Driving (Switch Simulator)} (hs : startWith arch config = some h) :
    ∃ sim, Simulator.ofArchitecture arch { Sim.Config.default with baseAddress := 0 } = .ok sim ∧
      (Driver.new arch config).run (Switch.ofPlan sim ⟨[], none, none⟩) =
        (.ok h.driver, h.remote) := by
  unfold startWith at hs
  split at hs
  · cases hs
  · split at hs
    · cases hs
    · cases hs
      exact ⟨_, ‹_›, ‹_›⟩

theorem reached_startWith {A : Driver → Operation → Prop} {arch : Architecture} {config : Config}
    {h : Driving (Switch Simulator)} (hs : startWith arch config = some h) : Reached A h := by
  obtain ⟨sim, hsim, hnew⟩ := exists_of_startWith hs
  exact .new hsim (fun _ hc => absurd hc List.not_mem_nil) hnew

theorem reached_smallStart {A : Driver → Operation → Prop} {h : Driving (Switch Simulator)}
    (hs : smallStart = some h) : Reached A h :=
  reached_startWith hs

theorem exists_smallStart : ∃ h, smallStart = some h :=
  Option.isSome_iff_exists.mp (by decide +kernel)

def overdue (h : Driving (Switch Simulator)) : Driving (Switch Simulator) :=
  ((h.tune true none none).after (.executeProgram [.noOp])).tune false (some 1) none

theorem queue_drained_overdue :
    ∃ h h' : Driving (Switch Simulator), Reached Driver.Harmless h ∧
      h.driver.probe.outstanding = true ∧ h.device.queue.length = 3 ∧
      (Driving.perform .flush).run h = (.ok (), h') ∧ h'.device.queue = [] ∧
      h'.device.executed = h.device.executed + h.device.queue.length + 0 + 2 := by
  obtain ⟨start, hs⟩ := exists_smallStart
  have hfacts : ∀ h ∈ smallStart, (overdue h).driver.probe.outstanding = true ∧
      (overdue h).device.queue.length = 3 ∧
      ((Driving.perform .flush).run (overdue h)).1.isOk = true := by decide +kernel
  obtain ⟨hout, hlen, hok⟩ := hfacts start hs
  have hr : Reached Driver.Harmless (overdue start) := by
    refine .tune _ _ _ (.perform (.tune _ _ _ (reached_smallStart hs)) fun instr hi => ?_)
    rw [List.mem_singleton.mp hi]
    exact ⟨id, id⟩
  cases hrun : (Driving.perform .flush).run (overdue start) with
  | mk r h' =>
    rw [hrun] at hok
    cases r with
    | error e => cases hok
    | ok _ =>
      have hop : (overdue start).driver.Harmless .flush := trivial
      exact ⟨_, h', hr, hout, hlen, hrun, queue_drained hr hop rfl hrun⟩

end Small

end TensorUnit.Host
