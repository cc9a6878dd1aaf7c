import TensorUnit.Remote.Service

namespace TensorUnit.Remote

inductive Interference where
  | fail (error : RemoteError)
  | answer (responses : List Response)
  deriving DecidableEq, Repr

/-- What is to happen to the calls to come, counted from 0. Of two entries for one call the first
counts. -/
structure FaultPlan where
  calls : List (Nat × Interference)
  up : Option RemoteError
  down : Option RemoteError
  deriving DecidableEq, Repr

/-- The patience of every wait, by the number of calls before it. -/
abbrev Clock := Duration → Duration → Nat → Nat

def Clock.steady : Clock :=
  fun timeout pause _ => steadyPatience timeout pause

/-- A switch in front of a remote instance. It counts and records the batches, and makes chosen
calls fail before they reach the instance, or answer something else. -/
structure Switch (σ : Type) where
  remote : σ
  plan : FaultPlan
  clock : Clock
  call : Nat
  /-- the batches so far, the last one first, whether they succeed or not -/
  log : List Batch

namespace Switch

variable {σ : Type}

def ofPlan (remote : σ) (plan : FaultPlan) : Switch σ :=
  ⟨remote, plan, .steady, 0, []⟩

def replan (s : Switch σ) (plan : FaultPlan) : Switch σ :=
  { s with plan, call := 0 }

def timed (s : Switch σ) (clock : Clock) : Switch σ :=
  { s with clock }

def clearLog (s : Switch σ) : Switch σ :=
  { s with log := [] }

@[inline] def through {ε α : Type} (a : Action σ ε α) : Action (Switch σ) ε α :=
  fun ⟨remote, plan, clock, call, log⟩ =>
    match a remote with
    | (r, remote) => (r, ⟨remote, plan, clock, call, log⟩)

variable [Service σ]

def refusable (refusal : FaultPlan → Option RemoteError) (a : Action σ RemoteError Unit) :
    Action (Switch σ) RemoteError Unit := do
  match ← Action.view fun s => refusal s.plan with
  | some error => Action.fail error
  | none => through a

def record (batch : Batch) : Action (Switch σ) RemoteError (Option Interference) :=
  fun ⟨remote, plan, clock, call, log⟩ =>
    (.ok (plan.calls.lookup call), ⟨remote, plan, clock, call + 1, batch :: log⟩)

def send (batch : Batch) : Action (Switch σ) RemoteError (List Response) := do
  match ← record batch with
  | some (.fail error) => Action.fail error
  | some (.answer responses) =>
    let _ ← through (execute batch)
    return responses
  | none => through (execute batch)

instance : Service (Switch σ) where
  up := refusable FaultPlan.up up
  down := refusable FaultPlan.down down
  isUp s := isUp s.remote
  maxPayload s := maxPayload s.remote
  execute := send
  patience timeout pause s := s.clock timeout pause s.call

end Switch

end TensorUnit.Remote
