import TensorUnit.Host.Driver

namespace TensorUnit.Host

/-- What a caller may ask of a driver. -/
inductive Operation where
  | write (bank : Bank) (address : ScalarAddress) (values : List Int)
  | writeBytes (bank : Bank) (offset : ByteOffset) (bytes : List UInt8)
  | read (bank : Bank) (address : ScalarAddress) (length : UInt64)
  | compare (bank : Bank) (address : ScalarAddress) (expected : List Int)
  | dmaWrite (stream : List UInt8)
  | writeInstructions (program : List Tcu.Instruction)
  | executeProgram (program : List Tcu.Instruction)
  | executeStream (stream : List UInt8)
  | flush
  | configure (registers : List (Tcu.Register × UInt64))
  | loadConsts (base : RowAddress) (size : UInt64)
  | loadModel (files : Files) (path : String)
  | run (inputs : Driving.Tensors)
  | close

namespace Driving

open Remote (Service)

variable {σ : Type} [Service σ]

def perform : Operation → Act σ Unit
  | .write bank address values => write bank address values
  | .writeBytes bank offset bytes => writeBytes bank offset bytes
  | .read bank address length => do let _ ← read bank address length
  | .compare bank address expected => do let _ ← compare bank address expected
  | .dmaWrite stream => dmaWrite stream
  | .writeInstructions program => writeInstructions program
  | .executeProgram program => do let _ ← executeProgram program
  | .executeStream stream => do let _ ← executeStream stream
  | .flush => do let _ ← flush
  | .configure registers => do let _ ← configure registers
  | .loadConsts base size => loadConsts base size
  | .loadModel files path => loadModel files path
  | .run inputs => do let _ ← run inputs
  | .close => close

def after (h : Driving σ) (op : Operation) : Driving σ :=
  ((perform op).run h).2

def afterAll (h : Driving σ) (history : List Operation) : Driving σ :=
  history.foldl after h

theorem afterAll_induction {P : Driving σ → Prop} (keeps : ∀ h op, P h → P (h.after op))
    {h : Driving σ} (hp : P h) (history : List Operation) : P (h.afterAll history) := by
  induction history generalizing h with
  | nil => exact hp
  | cons op history ih => exact ih (keeps h op hp)

end Driving

end TensorUnit.Host
