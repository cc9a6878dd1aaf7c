import TensorUnit.Host.Mem
import TensorUnit.Host.Policy
import TensorUnit.Tcu.Instruction

namespace TensorUnit.Host

open Remote (Service)

/-- The unit gives no sign that a stream is done, so every stream ends with two moves that carry a
stamp from the last DRAM0 row through the last scratchpad row into the last but one DRAM0 row. A
probe that timed out is still queued and will carry whatever its source row holds by then, so that
row is not written again before the probe has been observed. -/
structure Probe where
  source : RowAddress
  target : RowAddress
  scratchpad : RowAddress
  arraySize : UInt64
  maxRaw : Int
  /-- how often the probe has been armed -/
  generation : Nat
  /-- sent and not yet observed -/
  outstanding : Bool
  deriving DecidableEq, Repr

structure Probing (σ : Type) where
  probe : Probe
  remote : σ

namespace Probe

def ofArchitecture (arch : Architecture) : Except SpecError Probe :=
  if arch.dram0Depth < 2 ∨ arch.localDepth = 0 then .error (.invalidArchitecture .noProbeRows)
  else .ok {
    source := ⟨arch.dram0Depth - 1⟩
    target := ⟨arch.dram0Depth - 2⟩
    scratchpad := ⟨arch.localDepth - 1⟩
    arraySize := arch.arraySize
    maxRaw := arch.dataType.maxRaw
    generation := 0
    outstanding := false }

/-- The stamp of the present generation. Stamps are positive and repeat when the positive raw
values are used up. -/
def stamp (p : Probe) : Int :=
  1 + ((p.generation - 1 : Nat) % max p.maxRaw 1)

def row (p : Probe) (value : Int) : Except SpecError (List Int) :=
  if p.arraySize.toNat < scalarLimit then .ok (List.replicate p.arraySize.toNat value)
  else .error .tooLarge

def pattern (p : Probe) : Except SpecError (List Int) :=
  p.row p.stamp

def instructions (p : Probe) : List Tcu.Instruction :=
  [.move .dram0ToLocal p.scratchpad.val p.source.val 0,
   .move .localToDram0 p.scratchpad.val p.target.val 0]

def scalar (p : Probe) (row : RowAddress) : Except SpecError ScalarAddress :=
  ScalarAddress.mk <$> SpecError.orTooLarge (Exact.mul? row.val p.arraySize)

def advance (p : Probe) : Probe :=
  { p with generation := p.generation + 1 }

end Probe

namespace Probing

variable {σ : Type}

abbrev Act (σ α : Type) := Action (Probing σ) DriverError α

@[inline] def onRemote {α : Type} (a : Action σ DriverError α) : Act σ α :=
  fun ⟨probe, remote⟩ =>
    match a remote with
    | (r, remote) => (r, ⟨probe, remote⟩)

def getProbe : Act σ Probe :=
  Action.view Probing.probe

def setOutstanding (outstanding : Bool) : Act σ Unit :=
  Action.update fun s => { s with probe := { s.probe with outstanding } }

variable [Service σ]

/-- Writes a new stamp into the source row and clears the target row. -/
def arm (dram0 : Mem) : Act σ Unit := do
  Action.require (¬ (← getProbe).outstanding) (.configuration .rearmed)
  Action.update fun s => { s with probe := s.probe.advance }
  let p ← getProbe
  let pattern ← ofSpec p.pattern
  let zeroes ← ofSpec (p.row 0)
  onRemote (dram0.write (← ofSpec (p.scalar p.source)) pattern)
  onRemote (dram0.write (← ofSpec (p.scalar p.target)) zeroes)

def isObserved (dram0 : Mem) : Act σ Bool := do
  let p ← getProbe
  let pattern ← ofSpec p.pattern
  onRemote (dram0.compare (← ofSpec (p.scalar p.target)) pattern)

def poll (dram0 : Mem) (polls : Nat) : Nat → Act σ Nat
  | 0 => Action.fail (.synchronizationTimeout polls)
  | more + 1 => do
    if ← isObserved dram0 then
      setOutstanding false
      return polls + 1
    else poll dram0 (polls + 1) more

/-- Polls until the stamp shows up, and gives the number of polls. Until then the probe is
outstanding. The time is looked at behind every poll, so that one is made however short the timeout
is. -/
def wait (dram0 : Mem) (policy : FlushPolicy) : Act σ Nat := do
  setOutstanding true
  let more ← Action.view fun s => Remote.patience policy.timeout policy.pollInterval s.remote
  poll dram0 0 (more + 1)

def settle (dram0 : Mem) (policy : FlushPolicy) : Act σ (Option Nat) := do
  if (← getProbe).outstanding then return some (← wait dram0 policy) else return none

end Probing

end TensorUnit.Host
