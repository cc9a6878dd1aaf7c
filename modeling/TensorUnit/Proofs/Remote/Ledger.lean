import TensorUnit.Proofs.Action
import TensorUnit.Remote.Service

namespace TensorUnit.Remote

open TensorUnit.Action (Triple)

inductive Request where
  | up
  | down
  | execute (batch : Batch)
  deriving DecidableEq, Repr

/-- A request, and why it was refused, if it was. -/
structure Entry where
  request : Request
  refusal : Option RemoteError
  deriving DecidableEq, Repr

structure Ledger (σ : Type) where
  remote : σ
  /-- the first one first -/
  entries : List Entry

namespace Ledger

variable {σ α : Type}

def refusal? : Except RemoteError α → Option RemoteError
  | .ok _ => none
  | .error e => some e

@[inline] def note (request : Request) (a : Action σ RemoteError α) :
    Action (Ledger σ) RemoteError α :=
  fun ⟨remote, entries⟩ =>
    match a remote with
    | (r, remote) => (r, ⟨remote, entries ++ [⟨request, refusal? r⟩]⟩)

theorem note_run (request : Request) (a : Action σ RemoteError α) (l : Ledger σ) :
    (note request a).run l = ((a.run l.remote).1,
      ⟨(a.run l.remote).2, l.entries ++ [⟨request, refusal? (a.run l.remote).1⟩]⟩) :=
  rfl

instance [Service σ] : Service (Ledger σ) where
  up := note .up Service.up
  down := note .down Service.down
  isUp l := Service.isUp l.remote
  maxPayload l := Service.maxPayload l.remote
  execute batch := note (.execute batch) (Service.execute batch)
  patience timeout pause l := Service.patience timeout pause l.remote

end Ledger

end TensorUnit.Remote
