import TensorUnit.Remote.Service
import TensorUnit.Sim.Device
import TensorUnit.Tcu.Decode

namespace TensorUnit.Sim

open Remote

structure Config where
  instructionsPerCall : Option Nat
  /-- queues instructions and never executes them -/
  stall : Bool
  /-- the buffer write that fails, counted from 0 -/
  failBufferWriteAt : Option Nat
  maxPayload : Nat
  baseAddress : UInt64
  deriving DecidableEq, Repr

def Config.default : Config where
  instructionsPerCall := none
  stall := false
  failBufferWriteAt := none
  maxPayload := defaultMaxPayload
  baseAddress := 0x10000000

structure Stats where
  batches : Nat
  bufferWrites : Nat
  bytesWritten : Nat
  bufferReads : Nat
  bytesRead : Nat
  dmaSends : Nat
  deriving DecidableEq, Repr

/-- A remote instance whose unit executes queued instructions at the end of every batch that
succeeds. -/
structure Simulator where
  layout : Tcu.Layout
  config : Config
  up : Bool
  machine : Machine
  channels : List String
  stats : Stats
  /-- The unit has computed an address that is no 64-bit number. What comes after that is void, also
  when its fault was not the first to be reported. -/
  overflowed : Bool

namespace Simulator

def ofArchitecture (arch : Architecture) (config : Config) : Except SpecError Simulator := do
  let layout ← Tcu.Layout.ofArchitecture arch
  let memory ← Memory.startingAt config.baseAddress
  return {
    layout
    config
    up := false
    machine := ⟨← Device.ofArchitecture arch, memory⟩
    channels := []
    stats := ⟨0, 0, 0, 0, 0, 0⟩
    overflowed := false }

def device (s : Simulator) : Device :=
  s.machine.device

def memory (s : Simulator) : Memory :=
  s.machine.memory

abbrev Act (α : Type) := Action Simulator RemoteError α

def count (f : Stats → Stats) : Act Unit :=
  Action.update fun s => { s with stats := f s.stats }

def updateMemory (f : Memory → Memory) : Act Unit :=
  Action.update fun s => { s with machine := { s.machine with memory := f s.machine.memory } }

def checkPayload (length : Nat) : Act Unit := do
  let limit ← Action.view fun s => s.config.maxPayload
  Action.require (length ≤ limit) (.payloadTooLarge length limit)

def checkChannel (name : String) : Act Unit := do
  let channels ← Action.view Simulator.channels
  Action.require (name ∈ channels) (.unknownChannel name)

def checkWindow (name : String) (offset length : UInt64) : Act Unit := do
  Action.ofExcept (← Action.view fun s => s.memory.checkWindow name offset length)

def alloc (name : String) (size : UInt64) : Act (List Response) := do
  let (address, memory) ← Action.ofExcept (← Action.view fun s => s.memory.alloc name size)
  updateMemory fun _ => memory
  return [.address address]

def dealloc (name : String) : Act Unit := do
  let memory ← Action.ofExcept (← Action.view fun s => s.memory.dealloc name)
  updateMemory fun _ => memory

def write (name : String) (offset : UInt64) (data : List UInt8) : Act Unit := do
  let index ← Action.view fun s => s.stats.bufferWrites
  count fun c => { c with bufferWrites := c.bufferWrites + 1 }
  let failing ← Action.view fun s => s.config.failBufferWriteAt
  Action.require (failing ≠ some index) (.transport (.injectedWrite index))
  checkPayload data.length
  checkWindow name offset (.ofNat data.length)
  updateMemory fun m => m.write name offset data
  count fun c => { c with bytesWritten := c.bytesWritten + data.length }

def read (name : String) (offset length : UInt64) : Act (List Response) := do
  checkPayload length.toNat
  checkWindow name offset length
  let data ← Action.view fun s => s.memory.read name offset length
  count fun c =>
    { c with bufferReads := c.bufferReads + 1, bytesRead := c.bytesRead + length.toNat }
  return [.data data]

def instructions (layout : Tcu.Layout) (stream : List UInt8) :
    Except DeviceFault (List Tcu.Instruction) :=
  if stream.length % layout.instructionBytes ≠ 0 then
    .error (.partialStream stream.length layout.instructionBytes)
  else
    ((Bytes.words layout.instructionBytes stream).mapM (Tcu.decode layout)).mapError .undecodable

/-- Queues the instructions in a buffer. They are sent as soon as they are queued. -/
def sendBuffer (channel source : String) : Act Unit := do
  checkChannel channel
  match ← Action.view fun s => s.memory.region? source with
  | none => Action.fail (.unknownBuffer source)
  | some region =>
    let layout ← Action.view Simulator.layout
    match instructions layout region.contents.data.toList with
    | .error fault => Action.fail (.device fault)
    | .ok queued =>
      Action.update fun s =>
        { s with machine := { s.machine with device := s.machine.device.enqueue queued } }
      count fun c => { c with dmaSends := c.dmaSends + 1 }

def openChannel (name : String) : Act Unit :=
  Action.update fun s => { s with channels := name :: s.channels.filter fun c => c ≠ name }

def closeChannel (name : String) : Act Unit := do
  checkChannel name
  Action.update fun s => { s with channels := s.channels.filter fun c => c ≠ name }

def apply : Primitive → Act (List Response)
  | .bufferAlloc name size => alloc name size
  | .bufferDealloc name => do dealloc name; return []
  | .bufferWrite name offset data => do write name offset data; return []
  | .bufferRead name offset length => read name offset length
  | .dmaAlloc name => do openChannel name; return []
  | .dmaWrite name source => do sendBuffer name source; return []
  | .dmaWait name _ => do checkChannel name; return []
  | .dmaDealloc name => do closeChannel name; return []

def applyAll : Batch → Act (List Response)
  | [] => pure []
  | p :: ps => do
    let first ← apply p
    return first ++ (← applyAll ps)

@[inline] def onMachine {α : Type} (a : Machine.Step α) : Act α :=
  fun ⟨layout, config, up, machine, channels, stats, overflowed⟩ =>
    match a machine with
    | (.ok x, machine) => (.ok x, ⟨layout, config, up, machine, channels, stats, overflowed⟩)
    | (.error fault, machine) =>
      (.error (.device fault),
        ⟨layout, config, up, machine, channels, stats, overflowed || fault = .addressOverflow⟩)

def stepDevice : Act Unit := do
  let config ← Action.view Simulator.config
  if config.stall then return ()
  let _ ← onMachine (Machine.step config.instructionsPerCall)

def execute (batch : Batch) : Act (List Response) := do
  let up ← Action.view Simulator.up
  Action.require up .notUp
  count fun c => { c with batches := c.batches + 1 }
  let responses ← applyAll batch
  stepDevice
  return responses

def tornDown (s : Simulator) : Simulator :=
  { s with
    up := false
    machine := ⟨s.machine.device.reset, s.machine.memory.clear⟩
    channels := [] }

instance : Service Simulator where
  up := Action.update fun s => { s with up := true }
  down := Action.update tornDown
  isUp := Simulator.up
  maxPayload s := s.config.maxPayload
  execute := execute
  patience timeout pause _ := steadyPatience timeout pause

end Simulator

end TensorUnit.Sim
