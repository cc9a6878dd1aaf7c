import TensorUnit.Host.Error
import TensorUnit.Host.Policy
import TensorUnit.Remote.Service

namespace TensorUnit.Host

structure Config where
  dram0Buffer : String
  dram1Buffer : String
  dmaChannel : String
  /-- the buffer that holds a stream until it is sent -/
  stagingBuffer : String
  chunkSize : UInt64
  flush : FlushPolicy
  dmaWaitTimeout : Duration
  deviceTimeout : UInt64
  deriving DecidableEq, Repr

namespace Config

def default : Config where
  dram0Buffer := "d0"
  dram1Buffer := "d1"
  dmaChannel := "inst"
  stagingBuffer := "b_inst"
  chunkSize := .ofNat Remote.defaultMaxPayload
  flush := .default
  dmaWaitTimeout := .ofSecs 3
  deviceTimeout := 100

def names (c : Config) : List (String × String) :=
  [("dram0_buffer", c.dram0Buffer), ("dram1_buffer", c.dram1Buffer),
   ("dma_channel", c.dmaChannel), ("staging_buffer", c.stagingBuffer)]

def repeated? : List String → Option String
  | [] => none
  | name :: rest => if name ∈ rest then some name else repeated? rest

def fault? (c : Config) (maxPayload : Nat) : Option ConfigFault :=
  match c.names.find? fun n => n.2 = "" with
  | some (key, _) => some (.emptyName key)
  | none =>
    match repeated? [c.dram0Buffer, c.dram1Buffer, c.stagingBuffer] with
    | some name => some (.repeatedBuffer name)
    | none =>
      if 0 < c.chunkSize.toNat ∧ c.chunkSize.toNat ≤ maxPayload then none
      else some (.chunkSize c.chunkSize.toNat maxPayload)

def validate (c : Config) (maxPayload : Nat) : Except DriverError Unit :=
  match c.fault? maxPayload with
  | some fault => .error (.configuration fault)
  | none => .ok ()

end Config

end TensorUnit.Host
