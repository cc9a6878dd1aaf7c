import TensorUnit.DataType.Fixed
import TensorUnit.Host.Document
import TensorUnit.Host.Files
import TensorUnit.Host.Probe
import TensorUnit.Sim.Memory
import TensorUnit.Tcu.Encode

namespace TensorUnit.Host

open Remote

structure DramOffsets where
  dram0 : UInt64
  dram1 : UInt64
  deriving DecidableEq, Repr

/-- A driver owns an instance of the unit from the time it is opened until it is closed. Every
stream that it waits for ends with the flush probe. -/
structure Driver where
  arch : Architecture
  layout : Tcu.Layout
  config : Config
  dram0 : Mem
  dram1 : Mem
  probe : Probe
  offsets : DramOffsets
  closed : Bool
  loaded : Option LoadedModel
  deriving DecidableEq, Repr

def Driver.mem (d : Driver) : Bank → Mem
  | .dram0 => d.dram0
  | .dram1 => d.dram1

structure Driving (σ : Type) where
  driver : Driver
  remote : σ

namespace Driving

variable {σ : Type}

abbrev Act (σ α : Type) := Action (Driving σ) DriverError α

@[inline] def onRemote {α : Type} (a : Action σ DriverError α) : Act σ α :=
  fun ⟨driver, remote⟩ =>
    match a remote with
    | (r, remote) => (r, ⟨driver, remote⟩)

@[inline] def onProbe {α : Type} (a : Probing.Act σ α) : Act σ α :=
  fun ⟨driver, remote⟩ =>
    match a ⟨driver.probe, remote⟩ with
    | (r, ⟨probe, remote⟩) => (r, ⟨{ driver with probe }, remote⟩)

def getDriver : Act σ Driver :=
  Action.view Driving.driver

def ensureOpen : Act σ Unit := do
  Action.require (¬ (← getDriver).closed) .closed

def setLoaded (loaded : Option LoadedModel) : Act σ Unit :=
  Action.update fun h => { h with driver := { h.driver with loaded } }

variable [Service σ]

def call (batch : Batch) : Act σ (List Response) :=
  onRemote ((execute batch).mapError .remote)

def write (bank : Bank) (address : ScalarAddress) (values : List Int) : Act σ Unit := do
  ensureOpen
  let d ← getDriver
  onRemote ((d.mem bank).write address values)

def writeBytes (bank : Bank) (offset : ByteOffset) (bytes : List UInt8) : Act σ Unit := do
  ensureOpen
  let d ← getDriver
  onRemote ((d.mem bank).writeBytes offset bytes)

def read (bank : Bank) (address : ScalarAddress) (length : UInt64) : Act σ (List Int) := do
  ensureOpen
  let d ← getDriver
  onRemote ((d.mem bank).read address length)

def compare (bank : Bank) (address : ScalarAddress) (expected : List Int) : Act σ Bool := do
  ensureOpen
  let d ← getDriver
  onRemote ((d.mem bank).compare address expected)

def sendStaged (stream : List UInt8) : Act σ Unit := do
  let c := (← getDriver).config
  let _ ← onRemote (writeChunked c.stagingBuffer 0 stream c.chunkSize.toNat)
  let _ ← call [.dmaWrite c.dmaChannel c.stagingBuffer, .dmaWait c.dmaChannel c.dmaWaitTimeout]

/-- Sends a stream through the staging buffer, which is released whatever happens. Of two failures
the first is reported. The unit need not have executed the stream at the end. -/
def dmaWrite (stream : List UInt8) : Act σ Unit := do
  ensureOpen
  if stream.isEmpty then return ()
  let staging := (← getDriver).config.stagingBuffer
  let _ ← call [.bufferAlloc staging (.ofNat stream.length)]
  let sent ← Action.attempt (sendStaged stream)
  let released ← Action.attempt (call [.bufferDealloc staging])
  Action.ofExcept sent
  let _ ← Action.ofExcept released

def assemble (program : List Tcu.Instruction) : Act σ (List UInt8) := do
  ofEncode (Tcu.assemble (← getDriver).layout program)

def writeInstructions (program : List Tcu.Instruction) : Act σ Unit := do
  dmaWrite (← assemble program)

/-- Runs a stream to its end, and gives the number of polls. A stream whose flush timed out earlier
is waited for first, so that its probe cannot stand for this one. -/
def executeStream (stream : List UInt8) : Act σ Nat := do
  ensureOpen
  let d ← getDriver
  Action.require (stream.length % d.layout.instructionBytes = 0)
    (.decode (.truncated stream.length d.layout.instructionBytes))
  let _ ← onProbe (Probing.settle d.dram0 d.config.flush)
  onProbe (Probing.arm d.dram0)
  let probe ← assemble d.probe.instructions
  dmaWrite (stream ++ probe)
  onProbe (Probing.wait d.dram0 d.config.flush)

def executeProgram (program : List Tcu.Instruction) : Act σ Nat := do
  executeStream (← assemble program)

def flush : Act σ Nat :=
  executeStream []

def configure (registers : List (Tcu.Register × UInt64)) : Act σ Nat :=
  executeProgram (registers.map fun r => .configure r.1 r.2)

/-- Copies rows of DRAM1 into the scratchpad, each to the row of the same number. -/
def loadConsts (base : RowAddress) (size : UInt64) : Act σ Unit := do
  if size = 0 then return ()
  let arch := (← getDriver).arch
  ofSpec (arch.checkRows .dram1 base.val size)
  ofSpec (arch.checkRows .scratchpad base.val size)
  let _ ← executeProgram [.move .dram1ToLocal base.val base.val (size - 1)]

def readFile (files : Files) (path : String) : Act σ (List UInt8) :=
  match files.read? path with
  | some bytes => pure bytes
  | none => Action.fail .unreadable

def readModel (files : Files) (path : String) : Act σ Model :=
  match files.readText? path with
  | some text => Action.ofExcept (Model.parse text)
  | none => Action.fail .unreadable

def checkPlacements (model : Model) : Act σ Unit := do
  let limit := (← getDriver).probe.target.val
  match misplaced? limit (model.inputs ++ model.outputs) with
  | some (region, stop) => Action.fail (.invalidPlacement region.name region.base stop limit)
  | none => return ()

def stageConsts (files : Files) (path : String) : List ConstRef → Act σ Unit
  | [] => pure ()
  | c :: rest => do
    let arch := (← getDriver).arch
    ofSpec (arch.checkRows .dram1 c.base c.size)
    let data ← readFile files (Files.beside path c.fileName)
    writeBytes .dram1 (← ofSpec (arch.units.rowBytes ⟨c.base⟩)) data
    stageConsts files path rest

def loadAllConsts : List ConstRef → Act σ Unit
  | [] => pure ()
  | c :: rest => do
    loadConsts ⟨c.base⟩ c.size
    loadAllConsts rest

def loadModel (files : Files) (path : String) : Act σ Unit := do
  ensureOpen
  let model ← readModel files path
  let d ← getDriver
  Action.require (model.arch = d.arch) (.architectureMismatch model.arch d.arch)
  checkPlacements model
  stageConsts files path model.consts
  if model.loadConstsToLocal then loadAllConsts model.consts
  let program ← readFile files (Files.beside path model.prog.fileName)
  Action.require (program.length % d.layout.instructionBytes = 0)
    (.decode (.truncated program.length d.layout.instructionBytes))
  setLoaded (some ⟨model, program, path⟩)

abbrev Tensors := List (String × List Double)

def writeInputs (inputs : Tensors) : List Placement → Act σ Unit
  | [] => pure ()
  | region :: rest => do
    let arch := (← getDriver).arch
    match inputs.lookup region.name with
    | none => Action.fail (.missingInput region.name)
    | some values =>
      let capacity := (← ofSpec (arch.units.scalar ⟨region.size⟩)).val
      Action.require (values.length ≤ capacity.toNat)
        (.inputTooLarge region.name values.length capacity)
      let address ← ofSpec (arch.units.scalar ⟨region.base⟩)
      write .dram0 address (values.map arch.dataType.toFixed)
      writeInputs inputs rest

def extend (name : String) (values : List Double) : Tensors → Tensors
  | [] => [(name, values)]
  | (n, vs) :: rest =>
    if n = name then (n, vs ++ values) :: rest else (n, vs) :: extend name values rest

/-- Reads the outputs of a model. Regions of one name make one tensor, in their order. -/
def readOutputs (done : Tensors) : List Placement → Act σ Tensors
  | [] => pure done
  | region :: rest => do
    let arch := (← getDriver).arch
    let address ← ofSpec (arch.units.scalar ⟨region.base⟩)
    let length ← ofSpec (arch.units.scalar ⟨region.size⟩)
    let raw ← read .dram0 address length.val
    readOutputs (extend region.name (raw.map arch.dataType.fromFixed) done) rest

structure RunOutput where
  outputs : Tensors
  polls : Nat
  deriving DecidableEq, Repr

def run (inputs : Tensors) : Act σ RunOutput := do
  ensureOpen
  match (← getDriver).loaded with
  | none => Action.fail .modelNotLoaded
  | some loaded =>
    writeInputs inputs loaded.model.inputs
    let polls ← executeStream loaded.program
    return ⟨← readOutputs [] loaded.model.outputs, polls⟩

def releases (c : Config) : List Primitive :=
  [.bufferDealloc c.dram0Buffer, .bufferDealloc c.dram1Buffer, .dmaDealloc c.dmaChannel]

/-- Makes every release, each in a batch of its own, and gives the first failure. -/
def releaseAll (first : Option DriverError) : List Primitive → Act σ (Option DriverError)
  | [] => pure first
  | primitive :: rest => do
    match ← Action.attempt (call [primitive]) with
    | .ok _ => releaseAll first rest
    | .error e => releaseAll (first.or (some e)) rest

/-- Releases what the driver holds and tears the instance down. Every release is attempted, and the
first failure is reported. To close again does nothing. -/
def close : Act σ Unit := do
  let d ← getDriver
  if d.closed then return ()
  Action.update fun h => { h with driver := { h.driver with closed := true, loaded := none } }
  let first ← releaseAll none (releases d.config)
  let torn ← Action.attempt (onRemote (down.mapError .remote))
  match first with
  | some e => Action.fail e
  | none => Action.ofExcept torn

end Driving

namespace Driver

variable {σ : Type} [Service σ]

def tearDown {α : Type} (e : DriverError) : Action σ DriverError α := do
  let _ ← (Action.attempt down : Action σ DriverError _)
  Action.fail e

def bufferSize (arch : Architecture) : Except DriverError UInt64 := do
  let rowBytes ← (SpecError.orTooLarge arch.rowBytes?).mapError .spec
  match Exact.mul? (max arch.dram0Depth arch.dram1Depth) rowBytes with
  | some size => return size
  | none => throw (.configuration .bufferSizeOverflow)

def allocate (config : Config) (size : UInt64) : Action σ DriverError (UInt64 × UInt64) := do
  let batch : Batch :=
    [.bufferAlloc config.dram0Buffer size, .bufferAlloc config.dram1Buffer size,
     .dmaAlloc config.dmaChannel]
  match ← Action.attempt (execute batch) with
  | .error e => tearDown (.remote e)
  | .ok responses =>
    match responses.filterMap Response.address? with
    | [a, b] => return (a, b)
    | addresses => tearDown (.configuration (.addressCount addresses.length))

def registers (d : Driver) : List (Tcu.Register × UInt64) :=
  [(.dram0AddressOffset, d.offsets.dram0), (.dram1AddressOffset, d.offsets.dram1),
   (.timeout, d.config.deviceTimeout)]

/-- Configures the unit for a new driver. A failure closes the driver. -/
def configureNew (d : Driver) : Action σ DriverError Driver :=
  fun remote =>
    match (Driving.configure d.registers).run ⟨d, remote⟩ with
    | (.ok _, h) => (.ok h.driver, h.remote)
    | (.error e, h) => (.error e, (Driving.close.run h).2.remote)

/-- Brings an instance up and sets it up for a driver. A failure while allocating or configuring
tears it down again. -/
def new (arch : Architecture) (config : Config) : Action σ DriverError Driver := do
  ofSpec arch.validate
  let layout ← ofSpec (Tcu.Layout.ofArchitecture arch)
  let probe ← ofSpec (Probe.ofArchitecture arch)
  let limit ← Action.view maxPayload
  Action.ofExcept (config.validate limit)
  up.mapError .remote
  let size ← Action.ofExcept (bufferSize arch)
  let (first, second) ← allocate config size
  let mem (name : String) : Mem := ⟨name, arch.dataType, arch.units, size, config.chunkSize.toNat⟩
  configureNew {
    arch, layout, config, probe
    dram0 := mem config.dram0Buffer
    dram1 := mem config.dram1Buffer
    offsets := ⟨blocksFor first, blocksFor second⟩
    closed := false
    loaded := none }

end Driver

end TensorUnit.Host
