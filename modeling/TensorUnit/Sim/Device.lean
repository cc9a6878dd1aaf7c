import TensorUnit.Action
import TensorUnit.Architecture
import TensorUnit.DataType.Codec
import TensorUnit.Sim.Memory
import TensorUnit.Tcu.Instruction

namespace TensorUnit.Sim

open Remote (DeviceFault)
open Tcu (Instruction MoveFlag Register StridedAddress)

/-- A unit that moves data and is configured. The array itself is not simulated, so that MatMul and
LoadWeights are faults. -/
structure Device where
  arch : Architecture
  registers : List (Register × UInt64)
  scratchpad : Array Int
  accumulator : Array Int
  queue : List Instruction
  executed : Nat
  deriving DecidableEq

structure Machine where
  device : Device
  memory : Memory
  deriving DecidableEq

namespace Device

def cells (arch : Architecture) (depth : UInt64) : Nat :=
  depth.toNat * arch.arraySize.toNat

def fresh (arch : Architecture) : Device where
  arch
  registers := []
  scratchpad := Array.replicate (cells arch arch.localDepth) 0
  accumulator := Array.replicate (cells arch arch.accumulatorDepth) 0
  queue := []
  executed := 0

def ofArchitecture (arch : Architecture) : Except SpecError Device :=
  if max (cells arch arch.localDepth) (cells arch arch.accumulatorDepth) < scalarLimit then
    .ok (fresh arch)
  else .error .tooLarge

def reset (d : Device) : Device :=
  fresh d.arch

def enqueue (d : Device) (instructions : List Instruction) : Device :=
  { d with queue := d.queue ++ instructions }

def pending (d : Device) : Nat :=
  d.queue.length

def register (d : Device) (r : Register) : UInt64 :=
  (d.registers.lookup r).getD 0

def setRegister (d : Device) (r : Register) (value : UInt64) : Device :=
  { d with registers := (r, value) :: d.registers.filter fun e => e.1 ≠ r }

def width (d : Device) : Nat :=
  d.arch.arraySize.toNat

/-- The scalars of a row, or nothing if there is no such row. The last scalar of a row has a 64-bit
number where the first has one. -/
def row (d : Device) (cells : Array Int) (row : UInt64) : Except SpecError (Option (List Int)) := do
  match Exact.mul? row d.arch.arraySize with
  | none => return none
  | some start =>
    let stop ← SpecError.orTooLarge (Exact.add? start d.arch.arraySize)
    return if stop.toNat ≤ cells.size then some (window cells start.toNat d.width) else none

def findLocalRow (d : Device) (row : UInt64) : Except SpecError (Option (List Int)) :=
  d.row d.scratchpad row

def findAccumulatorRow (d : Device) (row : UInt64) : Except SpecError (Option (List Int)) :=
  d.row d.accumulator row

def localRow (d : Device) (row : UInt64) : List Int :=
  window d.scratchpad (row.toNat * d.width) d.width

def accumulatorRow (d : Device) (row : UInt64) : List Int :=
  window d.accumulator (row.toNat * d.width) d.width

end Device

namespace Machine

abbrev Step (α : Type) := Action Machine DeviceFault α

def setLocalRow (row : UInt64) (values : List Int) : Step Unit :=
  Action.update fun ⟨⟨arch, registers, scratchpad, accumulator, queue, executed⟩, memory⟩ =>
    let scratchpad := overwrite scratchpad (row.toNat * arch.arraySize.toNat) values
    ⟨⟨arch, registers, scratchpad, accumulator, queue, executed⟩, memory⟩

def setAccumulatorRow (row : UInt64) (values : List Int) : Step Unit :=
  Action.update fun ⟨⟨arch, registers, scratchpad, accumulator, queue, executed⟩, memory⟩ =>
    let accumulator := overwrite accumulator (row.toNat * arch.arraySize.toNat) values
    ⟨⟨arch, registers, scratchpad, accumulator, queue, executed⟩, memory⟩

def loadRow (address : UInt64) : Step (List UInt8) := do
  match ← Action.view fun m => m.memory.readAt? address m.device.arch.rowBytes with
  | some bytes => return bytes
  | none => Action.fail (.unmapped address)

def storeRow (address : UInt64) (bytes : List UInt8) : Step Unit := do
  let mapped ← Action.view fun m => (m.memory.regionAt? address bytes.length).isSome
  Action.require mapped (.unmapped address)
  Action.update fun m => { m with memory := m.memory.writeAt address bytes }

def offsetRegister : Space → Register
  | .dram0 => .dram0AddressOffset
  | _ => .dram1AddressOffset

def rowAddress? (d : Device) (space : Space) (row : UInt64) : Option UInt64 :=
  Exact.ofNat?
    ((d.register (offsetRegister space)).toNat * blockBytes.toNat + row.toNat * d.arch.rowBytes)

def address (result : Option UInt64) : Step UInt64 :=
  match result with
  | some address => pure address
  | none => Action.fail .addressOverflow

def moveDramRow (flag : MoveFlag) (localRow row : UInt64) : Step Unit := do
  let d ← Action.view Machine.device
  Action.require (row < d.arch.depth flag.remote) (.dramRow flag.remote row)
  let address ← address (rowAddress? d flag.remote row)
  if flag.isToLocal then
    setLocalRow localRow (d.arch.dataType.ofBytes (← loadRow address))
  else
    match d.arch.dataType.toBytes (d.localRow localRow) with
    | .error e => Action.fail (.scalar e)
    | .ok bytes => storeRow address bytes

def moveAccumulatorRow (flag : MoveFlag) (localRow row : UInt64) : Step Unit := do
  let d ← Action.view Machine.device
  Action.require (row < d.arch.accumulatorDepth) (.accumulatorRow row)
  match flag with
  | .accumulatorToLocal => setLocalRow localRow (d.accumulatorRow row)
  | .localToAccumulatorAccumulate =>
    setAccumulatorRow row ((d.accumulatorRow row).zipWith
      (fun a l => d.arch.dataType.saturate (a + l)) (d.localRow localRow))
  | _ => setAccumulatorRow row (d.localRow localRow)

def moveRow (flag : MoveFlag) (localRow row : UInt64) : Step Unit := do
  let d ← Action.view Machine.device
  Action.require (localRow < d.arch.localDepth) (.localRow localRow)
  match flag.remote with
  | .dram0 | .dram1 => moveDramRow flag localRow row
  | .accumulator | .scratchpad => moveAccumulatorRow flag localRow row

/-- The row `i` steps on. A stride is less than the width of an address; the bits of `i` that it
shifts out are lost. -/
def strided? (a : StridedAddress) (i : UInt64) : Option UInt64 :=
  if a.stride < 64 then Exact.add? a.address (i <<< a.stride) else none

def moveRows (flag : MoveFlag) (scratchpad address : StridedAddress) (i : Nat) : Nat → Step Unit
  | 0 => pure ()
  | count + 1 => do
    let localRow ← Machine.address (strided? scratchpad (.ofNat i))
    let row ← Machine.address (strided? address (.ofNat i))
    moveRow flag localRow row
    moveRows flag scratchpad address (i + 1) count

def execute : Instruction → Step Unit
  | .noOp => pure ()
  | .configure register value =>
    Action.update fun m => { m with device := m.device.setRegister register value }
  | .dataMove flag scratchpad address size =>
    moveRows flag scratchpad address 0 (size.toNat + 1)
  | instr => Action.fail (.unsupported instr.opcode)

def next? : Step (Option Instruction) :=
  fun ⟨device, memory⟩ =>
    match device.queue with
    | [] => (.ok none, ⟨device, memory⟩)
    | instr :: queue => (.ok (some instr), ⟨{ device with queue }, memory⟩)

def dropQueue (m : Machine) : Machine :=
  { m with device := { m.device with queue := [] } }

def countExecuted (m : Machine) : Machine :=
  { m with device := { m.device with executed := m.device.executed + 1 } }

/-- Executes the first instruction, which counts unless it is a fault. -/
def executeNext : Step Unit := do
  match ← next? with
  | none => return ()
  | some instr =>
    match ← Action.attempt (execute instr) with
    | .ok () => Action.update countExecuted
    | .error fault =>
      Action.update dropQueue
      Action.fail fault

def stepMany : Nat → Step Unit
  | 0 => pure ()
  | count + 1 => do
    executeNext
    stepMany count

def stepCount (m : Machine) (limit : Option Nat) : Nat :=
  match limit with
  | none => m.device.pending
  | some limit => min limit m.device.pending

/-- Executes queued instructions up to a limit, all of them without one. A fault drops the rest of
the queue. -/
def step (limit : Option Nat) : Step Nat := do
  let count ← Action.view (stepCount · limit)
  stepMany count
  return count

end Machine

end TensorUnit.Sim
