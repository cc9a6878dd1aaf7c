import TensorUnit.Proofs.Host.Flush

namespace TensorUnit.Host

open TensorUnit.Action (Triple Raises)
open Remote (Batch RemoteError Service execute)

/-- The error comes from a call, or from a transfer that cannot be cut into calls. -/
def DriverError.Called : DriverError → Prop
  | .remote _ | .transfer .. | .configuration (.chunkSize ..) => True
  | _ => False

variable {σ α : Type} {P : σ → Prop}

theorem raises_ofSpec {r : Except SpecError α} :
    Raises P (fun e s => P s ∨ e.Called) (ofSpec r : Action σ DriverError α) :=
  Raises.ofExcept fun _ _ _ h => .inl h

theorem keeps_ofSpec {r : Except SpecError α} :
    Triple P (ofSpec r : Action σ DriverError α) (fun _ => P) P :=
  Action.Keeps.ofExcept

variable [Service σ]

theorem raises_requireUp :
    Raises P (fun e _ => e.Called) (requireUp : Action σ DriverError Unit) :=
  Raises.view fun _ _ => Raises.require fun _ _ => trivial

theorem raises_execute {C : DriverError → Prop} {batch : Batch} {f : RemoteError → DriverError}
    (hC : ∀ e, C (f e)) :
    Raises P (fun e _ => C e) ((execute batch).mapError f : Action σ DriverError _) :=
  Raises.mapError (E := fun _ _ => True) (fun _ _ _ _ _ => trivial) fun e _ _ => hC e

theorem raises_writeChunks {C : DriverError → Prop} {buffer : String} {offset : UInt64}
    {size index : Nat} {chunks : List (List UInt8)}
    (hC : ∀ chunk position e, C (.transfer buffer chunk position e)) :
    Raises P (fun e _ => C e)
      (writeChunks buffer offset size index chunks : Action σ DriverError Nat) := by
  induction chunks generalizing P index with
  | nil => exact Raises.pure
  | cons chunk chunks ih => exact Raises.next (raises_execute fun _ => hC ..) fun _ => ih

theorem raises_writeChunked {buffer : String} {offset : UInt64} {data : List UInt8} {size : Nat} :
    Raises P (fun e _ => e.Called)
      (writeChunked buffer offset data size : Action σ DriverError Nat) := by
  refine Raises.next raises_requireUp fun _ => Raises.view fun _ _ => ?_
  exact Raises.next (Raises.require fun _ _ => trivial) fun _ =>
    raises_writeChunks fun _ _ _ => trivial

namespace Mem

variable {m : Mem}

theorem raises_writeRaw {offset : ByteOffset} {bytes : List UInt8} :
    Raises P (fun e s => P s ∨ e.Called) (m.writeRaw offset bytes : Action σ DriverError Unit) := by
  refine Raises.bind (Q := fun _ => P) Action.Keeps.ofExcept
    (Raises.ofExcept fun _ _ _ h => .inl h) fun _ => ?_
  exact Raises.next (raises_writeChunked.weaken (fun _ h => h) fun _ _ => .inr) fun _ => Raises.pure

theorem raises_write {address : ScalarAddress} {values : List Int} :
    Raises P (fun e s => P s ∨ e.Called)
      (m.write address values : Action σ DriverError Unit) :=
  Raises.bind keeps_ofSpec raises_ofSpec fun _ => Raises.bind keeps_ofSpec raises_ofSpec fun _ =>
    raises_writeRaw

theorem raises_writeBytes {offset : ByteOffset} {bytes : List UInt8} :
    Raises P (fun e s => P s ∨ e.Called)
      (m.writeBytes offset bytes : Action σ DriverError Unit) :=
  Raises.bind keeps_ofSpec raises_ofSpec fun _ => Raises.bind keeps_ofSpec raises_ofSpec fun _ =>
    raises_writeRaw

theorem raises_readWindows {C : DriverError → Prop} {offset : UInt64}
    {total size count index : Nat} {done : List (List UInt8)} (hC : ∀ e, C (.remote e)) :
    Raises P (fun e _ => C e)
      (m.readWindows offset total size index done count : Action σ DriverError _) := by
  induction count generalizing P index done with
  | zero => exact Raises.pure
  | succ count ih =>
    refine Raises.next (Raises.next (raises_execute hC) fun responses => ?_) fun _ => ih
    split
    · exact Raises.pure
    · exact Raises.fail fun _ _ => hC _

theorem raises_read {address : ScalarAddress} {length : UInt64} :
    Raises P (fun e s => P s ∨ e.Called)
      (m.read address length : Action σ DriverError (List Int)) := by
  refine Raises.bind keeps_ofSpec raises_ofSpec fun _ => ?_
  refine Raises.bind (Q := fun _ => P) Action.Keeps.ofExcept
    (Raises.ofExcept fun _ _ _ h => .inl h) fun _ => ?_
  refine Raises.bind (Q := fun _ => P)
    (Action.Keeps.bind Action.Keeps.view fun _ => Action.Keeps.require)
    (raises_requireUp.weaken (fun _ h => h) fun _ _ => .inr) fun _ => ?_
  refine Raises.bind (Q := fun _ => P) Action.Keeps.require (Raises.require fun _ h => .inl h)
    fun _ => Raises.view fun _ _ => ?_
  refine Raises.next ?_ fun _ => Raises.pure
  exact (raises_readWindows (C := DriverError.Called) fun _ => trivial).weaken (fun _ h => h)
    fun _ _ => .inr

theorem raises_compare {address : ScalarAddress} {expected : List Int} :
    Raises P (fun e s => P s ∨ e.Called)
      (m.compare address expected : Action σ DriverError Bool) :=
  Raises.next raises_read fun _ => Raises.pure

end Mem

namespace Driving

variable {P : Driving σ → Prop}

omit [Service σ] in
theorem raises_ensureOpen :
    Raises P (fun e s => P s ∨ e.Called) (ensureOpen : Act σ Unit) :=
  Raises.view fun _ _ => Raises.require fun _ h => .inl h

omit [Service σ] in
theorem keeps_ensureOpen : Action.Keeps P (ensureOpen : Act σ Unit) :=
  Action.Keeps.bind Action.Keeps.view fun _ => Action.Keeps.require

omit [Service σ] in
theorem raises_onRemote {E : DriverError → Driving σ → Prop} {a : Action σ DriverError α}
    (h : ∀ d, Raises (fun w => P ⟨d, w⟩) (fun e w => E e ⟨d, w⟩) a) :
    Raises P E (onRemote a : Act σ α) := by
  intro s e t hs hr
  rw [onRemote_run, Prod.mk.injEq] at hr
  obtain ⟨he, rfl⟩ := hr
  exact h s.driver s.remote e _ hs (Prod.ext he rfl)

omit [Service σ] in
theorem raises_access {bank : Bank} {f : Mem → Action σ DriverError α}
    (h : ∀ m (Q : σ → Prop), Raises Q (fun e s => Q s ∨ e.Called) (f m)) :
    Raises P (fun e s => P s ∨ e.Called) (do
      ensureOpen
      let d ← getDriver
      onRemote (f (d.mem bank))) := by
  refine Raises.bind keeps_ensureOpen raises_ensureOpen fun _ => Raises.view fun _ _ => ?_
  exact raises_onRemote fun d => h _ fun w => P ⟨d, w⟩

theorem raises_batch {batch : Remote.Batch} :
    Raises P (fun e _ => e.Called) (call batch : Act σ _) :=
  raises_onRemote fun _ => raises_execute fun _ => trivial

theorem raises_sendStaged {stream : List UInt8} :
    Raises P (fun e _ => e.Called) (sendStaged stream : Act σ Unit) := by
  refine Raises.view fun _ _ => Raises.next ?_ fun _ =>
    Raises.next raises_batch fun _ => Raises.pure
  exact raises_onRemote fun _ => raises_writeChunked

theorem raises_dmaWrite {stream : List UInt8} :
    Raises P (fun e s => P s ∨ e.Called) (dmaWrite stream : Act σ Unit) := by
  refine Raises.bind keeps_ensureOpen raises_ensureOpen fun _ => ?_
  split
  · exact Raises.pure
  · refine Raises.view fun _ _ => Raises.weaken (E := fun e _ => e.Called) ?_ (fun _ h => h)
      fun _ _ => .inr
    refine Raises.next raises_batch fun _ => Raises.attempt raises_sendStaged fun sent hsent => ?_
    refine Raises.attempt raises_batch fun released hreleased => ?_
    refine Raises.next (Raises.ofExcept fun e _ he _ => hsent e he) fun _ => ?_
    exact Raises.next (Raises.ofExcept fun e _ he _ => hreleased e he) fun _ => Raises.pure

end Driving

end TensorUnit.Host
