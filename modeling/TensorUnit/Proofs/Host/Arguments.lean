import TensorUnit.Proofs.Host.Bounds

namespace TensorUnit.Host

open TensorUnit.Action (Triple Keeps Raises Confined)
open Remote Sim

/-- The error tells what is wrong with the values, the addresses, the program or the stream that
were given. -/
def DriverError.OfArguments : DriverError → Prop
  | .spec _ | .encode _ | .decode (.truncated ..) | .outOfBounds .. => True
  | _ => False

theorem DriverError.Called.not_ofArguments {e : DriverError} (h : e.Called) :
    ¬ e.OfArguments := by
  cases e with
  | remote | transfer | configuration => exact id
  | _ => exact h.elim

theorem DriverError.OfRun.not_ofArguments {e : DriverError} (h : e.OfRun) : ¬ e.OfArguments := by
  cases e with
  | missingInput | inputTooLarge | remote | transfer | synchronizationTimeout => exact id
  | _ => exact h.elim

/-- The operation accesses memory, or sends or executes what its caller gives. -/
def Operation.Direct : Operation → Prop
  | .loadModel .. | .run _ | .close => False
  | _ => True

def Driver.bare (d : Driver) (stream : List UInt8) : LoadedModel :=
  ⟨⟨"", ⟨"", 0⟩, [], [], [], d.arch, false⟩, stream, ""⟩

namespace Driving

section Refuses

variable {σ α : Type}

def Refuses (h : Driving σ) (a : Act σ α) : Prop :=
  Raises (· = h) (fun e s => e.OfArguments → s = h) a

variable {h : Driving σ}

theorem Refuses.of_called {a : Act σ α} (ha : Raises (· = h) (fun e s => s = h ∨ e.Called) a) :
    Refuses h a :=
  ha.weaken (fun _ h => h) fun _ _ he harg => he.resolve_right fun hc => hc.not_ofArguments harg

theorem Refuses.discard {a : Act σ α} (ha : Refuses h a) : Refuses h (do let _ ← a) :=
  Raises.next ha fun _ => Raises.pure

theorem Refuses.check {β : Type} {a : Act σ α} {f : α → Act σ β} (ha : Keeps (· = h) a)
    (hf : ∀ x, Refuses h (f x)) : Refuses h (a >>= f) :=
  Raises.bind ha (fun _ _ _ hs hr _ => ha.error hs hr) hf

theorem keeps_assemble {P : Driving σ → Prop} {program : List Tcu.Instruction} :
    Keeps P (assemble program) :=
  Keeps.bind Keeps.view fun _ => Keeps.ofExcept

end Refuses

section Operations

variable {h : Driving (Switch Simulator)} {limit : Nat}
variable (hd : h.driver.WellMade limit) (hopen : h.driver.closed = false)
include hd hopen

theorem refuses_executeStream (stream : List UInt8) : Refuses h (executeStream stream) := by
  by_cases hwhole : stream.length % h.driver.layout.instructionBytes = 0
  -- a stream is run as the program of a model is, on any instance and whatever calls it takes
  · have hconfined : Confined (Beside h.driver h.driver.Probes fun _ => True)
        (fun e => ¬ e.OfArguments)
        (executeStream (h.driver.bare stream).program : Act (Switch Simulator) Nat) :=
      confined_executeStream hd hopen ⟨fun _ he => he.not_ofArguments, fun _ _ _ _ _ => id⟩
        (fun _ _ => Triple.top) hwhole
    intro s e t hs hr he
    rw [hs] at hr
    exact absurd he (hconfined.failure h e t ⟨⟨h.driver.probe, ⟨_, _, rfl⟩, rfl⟩, trivial⟩ hr).1
  · refine Refuses.check keeps_ensureOpen fun _ => Raises.view fun s hs => ?_
    subst hs
    rw [Action.require, if_neg hwhole]
    exact Raises.bind (Q := fun _ _ => False) (F := fun _ => True) (Triple.fail fun _ _ => trivial)
      (Raises.fail fun _ hs _ => hs) fun _ _ _ _ hf => hf.elim

theorem refuses_executeProgram (program : List Tcu.Instruction) :
    Refuses h (executeProgram program) :=
  Refuses.check keeps_assemble fun stream => refuses_executeStream hd hopen stream

theorem refuses_loadConsts (base : RowAddress) (size : UInt64) :
    Refuses h (loadConsts base size) := by
  unfold loadConsts
  split
  · exact Raises.pure
  · refine Refuses.check Keeps.view fun d => ?_
    exact Refuses.check keeps_ofSpec fun _ => Refuses.check keeps_ofSpec fun _ =>
      (refuses_executeProgram hd hopen _).discard

theorem refuses_perform {op : Operation} (hop : op.Direct) : Refuses h (perform op) := by
  cases op with
  | write bank address values =>
    exact .of_called (raises_access fun m _ => m.raises_write)
  | writeBytes bank offset bytes =>
    exact .of_called (raises_access fun m _ => m.raises_writeBytes)
  | read bank address length =>
    exact Refuses.discard (.of_called (raises_access fun m _ => m.raises_read))
  | compare bank address expected =>
    exact Refuses.discard (.of_called (raises_access fun m _ => m.raises_compare))
  | dmaWrite stream => exact .of_called raises_dmaWrite
  | writeInstructions program =>
    exact Refuses.check keeps_assemble fun _ => .of_called raises_dmaWrite
  | executeProgram program => exact (refuses_executeProgram hd hopen program).discard
  | executeStream stream => exact (refuses_executeStream hd hopen stream).discard
  | flush => exact (refuses_executeStream hd hopen []).discard
  | configure registers => exact (refuses_executeProgram hd hopen _).discard
  | loadConsts base size => exact refuses_loadConsts hd hopen base size
  | loadModel | run | close => exact hop.elim

end Operations

end Driving

variable {limit : Nat} {h : Driving (Switch Simulator)}

/-- An operation that fails for its arguments has made no call and has changed nothing. The moves of
the probe, which get their words when the probe has been armed, always have words: those of the
driver, and those of every architecture that a driver can be made for. -/
theorem arguments_refused (hs : Served limit h) (hopen : h.driver.closed = false) :
    (∀ op e t, op.Direct → (Driving.perform op).run h = (.error e, t) → e.OfArguments → t = h) ∧
      (∃ stream, Tcu.assemble h.driver.layout h.driver.probe.instructions = .ok stream) ∧
      ∀ arch layout probe, Tcu.Layout.ofArchitecture arch = .ok layout →
        Probe.ofArchitecture arch = .ok probe →
        ∃ stream, Tcu.assemble layout probe.instructions = .ok stream := by
  have hd : h.driver.WellMade limit := hs.closed_or.resolve_left (by simp [Driving.Closed, hopen])
  refine ⟨fun op e t hop hr he => ?_, hd.probe, fun _ _ _ hl hp => Probe.exists_assemble hl hp⟩
  exact Driving.refuses_perform hd hopen hop h e t rfl hr he

/-- A stream that is no whole number of instructions. -/
theorem arguments_refused_truncated :
    ∃ h : Driving (Switch Simulator), Served defaultMaxPayload h ∧ h.driver.closed = false ∧
      ((Driving.perform (.executeStream [0])).run h).1 =
        .error (.decode (.truncated 1 h.driver.layout.instructionBytes)) ∧
      h.after (.executeStream [0]) = h ∧
      ∃ stream, Tcu.assemble h.driver.layout h.driver.probe.instructions = .ok stream := by
  obtain ⟨start, hs⟩ := exists_smallStart
  have hfacts : ∀ h ∈ smallStart, h.driver.closed = false ∧
      ((Driving.perform (.executeStream [0])).run h).1 =
        .error (.decode (.truncated 1 h.driver.layout.instructionBytes)) := by decide +kernel
  obtain ⟨hopen, herror⟩ := hfacts start hs
  have hserved := served_smallStart hs
  obtain ⟨hunchanged, hprobe, _⟩ := arguments_refused hserved hopen
  refine ⟨start, hserved, hopen, herror, ?_, hprobe⟩
  exact hunchanged (.executeStream [0]) _ _ trivial (Prod.ext herror rfl) trivial

end TensorUnit.Host
