import TensorUnit.Host.Operation
import TensorUnit.Proofs.Host.Flush

namespace TensorUnit.Host

open TensorUnit.Action (Triple Keeps KeepsOr)
open Remote (Service)
open Tcu (Instruction)

structure Driver.Feeds (d : Driver) (region : Placement) (address : ScalarAddress)
    (values : List Double) : Prop where
  start : d.arch.units.scalar ⟨region.base⟩ = .ok address
  fits : values.length ≤ region.size.toNat * d.arch.arraySize.toNat

/-- An operation and those that it is made of. -/
inductive Driver.Makes (d : Driver) : Operation → Operation → Prop where
  | writeInstructions {program : List Instruction} {stream : List UInt8}
      (assembled : Tcu.assemble d.layout program = .ok stream) :
      Makes d (.writeInstructions program) (.dmaWrite stream)
  | executeProgram {program : List Instruction} {stream : List UInt8}
      (assembled : Tcu.assemble d.layout program = .ok stream) :
      Makes d (.executeProgram program) (.executeStream stream)
  | flush : Makes d .flush (.executeStream [])
  | configure {registers : List (Tcu.Register × UInt64)} :
      Makes d (.configure registers)
        (.executeProgram (registers.map fun r => .configure r.1 r.2))
  | loadConsts {base : RowAddress} {size : UInt64} (nonempty : size ≠ 0)
      (dram1 : d.arch.checkRows .dram1 base.val size = .ok ())
      (scratchpad : d.arch.checkRows .scratchpad base.val size = .ok ()) :
      Makes d (.loadConsts base size)
        (.executeProgram [.move .dram1ToLocal base.val base.val (size - 1)])
  | constData {files : Files} {path : String} (offset : ByteOffset) (bytes : List UInt8) :
      Makes d (.loadModel files path) (.writeBytes .dram1 offset bytes)
  | constRows {files : Files} {path : String} (base : RowAddress) (size : UInt64) :
      Makes d (.loadModel files path) (.loadConsts base size)
  | input {inputs : Driving.Tensors} {loaded : LoadedModel} {region : Placement}
      {address : ScalarAddress} {values : List Double} (is_loaded : d.loaded = some loaded)
      (declared : region ∈ loaded.model.inputs) (feeds : d.Feeds region address values) :
      Makes d (.run inputs) (.write .dram0 address (values.map d.arch.dataType.toFixed))
  | program {inputs : Driving.Tensors} {loaded : LoadedModel} (is_loaded : d.loaded = some loaded) :
      Makes d (.run inputs) (.executeStream loaded.program)
  | output {inputs : Driving.Tensors} (address : ScalarAddress) (length : UInt64) :
      Makes d (.run inputs) (.read .dram0 address length)

/-- What is not made of other operations. -/
def Operation.Simple : Operation → Prop
  | .write .. | .writeBytes .. | .read .. | .compare .. | .dmaWrite _ | .executeStream _ => True
  | _ => False

def Driver.Placed (d : Driver) : Prop :=
  ∀ loaded, d.loaded = some loaded →
    misplaced? d.target (loaded.model.inputs ++ loaded.model.outputs) = none

structure Driver.Takes (d : Driver) (loaded : LoadedModel) : Prop where
  placed : misplaced? d.target (loaded.model.inputs ++ loaded.model.outputs) = none
  whole : loaded.program.length % d.layout.instructionBytes = 0

/-- The model of a document, if the driver does not refuse it. -/
def Driver.admits? (d : Driver) (files : Files) (path : String) : Option Model := do
  let text ← files.readText? path
  let model ← (Model.parse text).toOption
  if model.arch = d.arch ∧ misplaced? d.target (model.inputs ++ model.outputs) = none then
    return model
  else none

theorem Driver.admits?_eq_some {d : Driver} {files : Files} {path text : String} {model : Model}
    (htext : files.readText? path = some text) (hmodel : Model.parse text = .ok model)
    (harch : model.arch = d.arch)
    (hplaced : misplaced? d.target (model.inputs ++ model.outputs) = none) :
    d.admits? files path = some model := by
  simp [admits?, htext, hmodel, harch, hplaced, Except.toOption]

namespace Driving

section Models

variable {σ : Type} [Service σ]

/-- All of loading a model but the last step, which puts it in the place of the one before. -/
def prepareModel (files : Files) (path : String) : Act σ LoadedModel := do
  ensureOpen
  let model ← readModel files path
  let d ← getDriver
  Action.require (model.arch = d.arch) (.architectureMismatch model.arch d.arch)
  checkPlacements model
  stageConsts files path model.consts
  if model.loadConstsToLocal then loadAllConsts model.consts
  let program ← readFile files (Files.beside path model.prog.fileName)
  Action.require (program.length % d.layout.instructionBytes = 0)
    (.decode (.truncated program.length d.layout.instructionBytes))
  return ⟨model, program, path⟩

theorem loadModel_eq (files : Files) (path : String) :
    (loadModel files path : Act σ Unit) =
      prepareModel files path >>= fun loaded => setLoaded (some loaded) := by
  simp only [loadModel, prepareModel, bind_assoc]
  refine congrArg _ (funext fun _ => congrArg _ (funext fun model => congrArg _ (funext fun d =>
    congrArg _ (funext fun _ => congrArg _ (funext fun _ => congrArg _ (funext fun _ => ?_))))))
  split
  · simp only [bind_assoc, pure_bind]
  · simp only [bind_assoc, pure_bind]

def transferModel (files : Files) (path : String) (layout : Tcu.Layout) (model : Model) :
    Act σ LoadedModel := do
  stageConsts files path model.consts
  if model.loadConstsToLocal then loadAllConsts model.consts
  let program ← readFile files (Files.beside path model.prog.fileName)
  Action.require (program.length % layout.instructionBytes = 0)
    (.decode (.truncated program.length layout.instructionBytes))
  return ⟨model, program, path⟩

theorem prepareModel_run (files : Files) (path : String) {h : Driving σ}
    (hopen : h.driver.closed = false) :
    (h.driver.admits? files path = none ∧ ∃ e, (prepareModel files path).run h = (.error e, h)) ∨
      ∃ model, h.driver.admits? files path = some model ∧
        (prepareModel files path).run h =
          (transferModel files path h.driver.layout model).run h := by
  have hopened : (ensureOpen : Act σ Unit).run h = (.ok (), h) := by
    rw [ensureOpen, Action.bind_run, getDriver, Action.view_run]
    simp only [Action.require_run, hopen]
    rfl
  rw [prepareModel, Action.bind_run, hopened, Driver.admits?]
  simp only [Action.bind_run, readModel]
  cases htext : files.readText? path with
  | none => exact .inl ⟨by simp, _, rfl⟩
  | some text =>
    cases hmodel : Model.parse text with
    | error e => exact .inl ⟨by simp [hmodel, Except.toOption], e, by simp [hmodel]⟩
    | ok model =>
      simp only [Action.ofExcept_run, getDriver, Action.view_run, Action.require_run,
        checkPlacements, Action.bind_run, hmodel]
      by_cases harch : model.arch = h.driver.arch
      · cases hplaced : misplaced? h.driver.target (model.inputs ++ model.outputs) with
        | some p =>
          rw [Driver.target] at hplaced
          refine .inl ⟨by simp [hmodel, Except.toOption, Driver.target, hplaced], ?_⟩
          simp only [if_pos harch, hplaced]
          exact ⟨_, rfl⟩
        | none =>
          refine .inr ⟨model, by simp [hmodel, Except.toOption, harch, hplaced], ?_⟩
          rw [Driver.target] at hplaced
          simp [harch, hplaced, transferModel, Action.bind_run]
      · refine .inl ⟨by simp [hmodel, Except.toOption, harch], ?_⟩
        simp only [if_neg harch]
        exact ⟨_, rfl⟩

theorem prepareModel_run_of_admits? {files : Files} {path : String} {h : Driving σ} {model : Model}
    (hopen : h.driver.closed = false) (hm : h.driver.admits? files path = some model) :
    (prepareModel files path).run h = (transferModel files path h.driver.layout model).run h := by
  obtain ⟨hnone, _⟩ | ⟨model', hm', hrun⟩ := prepareModel_run files path hopen
  · cases hm.symm.trans hnone
  · cases hm.symm.trans hm'
    exact hrun

end Models

section Parts

variable {σ α β : Type} [Service σ] {d : Driver} {I : Driving σ → Prop}
  {E : DriverError → Driving σ → Prop}

omit [Service σ] in
theorem keepsOr_ofSpec {r : Except SpecError β} {f : β → Act σ α}
    (h : ∀ x, r = .ok x → KeepsOr I E (f x)) : KeepsOr I E (ofSpec r >>= f) := by
  refine KeepsOr.check fun x hx => h x ?_
  cases r with
  | error e => cases hx
  | ok y =>
    cases hx
    rfl

omit [Service σ] in
theorem keepsOr_ensureOpen : KeepsOr I E (ensureOpen : Act σ Unit) :=
  (Keeps.bind Keeps.view fun _ => Keeps.require).or

omit [Service σ] in
theorem keepsOr_readFile {files : Files} {path : String} :
    KeepsOr I E (readFile files path : Act σ (List UInt8)) := by
  unfold readFile
  split
  · exact Keeps.pure.or
  · exact Keeps.fail.or

variable (hI : ∀ h, I h → ∃ generation outstanding, h.driver = d.probing generation outstanding)
include hI

omit [Service σ] in
theorem keepsOr_getDriver {f : Driver → Act σ α}
    (h : ∀ generation outstanding, KeepsOr I E (f (d.probing generation outstanding))) :
    KeepsOr I E (getDriver >>= f) := by
  apply KeepsOr.view
  intro s hs
  obtain ⟨generation, outstanding, he⟩ := hI s hs
  rw [he]
  exact h generation outstanding

omit [Service σ] in
theorem keepsOr_assemble {program : List Instruction} {f : List UInt8 → Act σ α}
    (h : ∀ stream, Tcu.assemble d.layout program = .ok stream → KeepsOr I E (f stream)) :
    KeepsOr I E (assemble program >>= f) := by
  rw [assemble, bind_assoc]
  apply keepsOr_getDriver hI
  intro generation outstanding
  refine KeepsOr.check fun stream hs => h stream ?_
  cases hr : Tcu.assemble d.layout program with
  | error e =>
    change (Tcu.assemble d.layout program).mapError _ = _ at hs
    rw [hr] at hs
    cases hs
  | ok y =>
    change (Tcu.assemble d.layout program).mapError _ = _ at hs
    rw [hr] at hs
    cases hs
    rfl

omit hI in
/-- Inputs are written one behind the other: `J done` holds when those of the regions in `done` are
written. -/
theorem triple_feed {inputs : Tensors} {regions : List Placement}
    {J : List Placement → Driving σ → Prop} {F : Driving σ → Prop}
    (hJ : ∀ done h, J done h →
      ∃ generation outstanding, h.driver = d.probing generation outstanding)
    (hstop : ∀ done h, J done h → F h)
    (hwrite : ∀ done region rest address values, done ++ region :: rest = regions →
      inputs.lookup region.name = some values → d.Feeds region address values →
      Triple (J done) (write .dram0 address (values.map d.arch.dataType.toFixed))
        (fun _ => J (done ++ [region])) F)
    {done rest : List Placement} (hr : done ++ rest = regions) :
    Triple (J done) (writeInputs inputs rest) (fun _ => J regions) F := by
  induction rest generalizing done with
  | nil =>
    rw [← hr, List.append_nil]
    exact Triple.pure fun _ h => h
  | cons region rest ih =>
    refine Triple.bind (Q := fun (e : Driver) h => e.arch = d.arch ∧ J done h)
      (Triple.view fun h hh => ⟨?_, hh⟩) fun e => Triple.assume fun he => ?_
    · obtain ⟨generation, outstanding, hd⟩ := hJ done h hh
      rw [hd]
      rfl
    dsimp only
    rw [he]
    split
    · exact Triple.fail fun _ hh => hstop done _ hh
    rename_i values hl
    refine Triple.bind (Q := fun capacity h =>
      d.arch.units.scalar ⟨region.size⟩ = .ok capacity ∧ J done h)
      (triple_ofSpec (fun _ _ hc hh => ⟨hc, hh⟩) (hstop done)) fun capacity =>
      Triple.assume fun hcap => ?_
    refine Triple.bind (Q := fun _ h => values.length ≤ capacity.val.toNat ∧ J done h)
      (Triple.require (fun _ hfits hh => ⟨hfits, hh⟩) fun _ _ hh => hstop done _ hh) fun _ =>
      Triple.assume fun hfits => ?_
    refine Triple.bind (Q := fun address h =>
      d.arch.units.scalar ⟨region.base⟩ = .ok address ∧ J done h)
      (triple_ofSpec (fun _ _ ha hh => ⟨ha, hh⟩) (hstop done)) fun address =>
      Triple.assume fun ha => ?_
    have hcap := AddressUnits.scalar_eq_ok_iff.mp hcap
    exact (hwrite done region rest address values hr hl ⟨ha, hcap ▸ hfits⟩).bind fun _ =>
      ih ((List.append_assoc ..).trans hr)

section Of

variable {op : Operation}

theorem keepsOr_writeInputs {inputs : Tensors} {loaded : LoadedModel}
    (hl : d.loaded = some loaded)
    (h : ∀ part, d.Makes (.run inputs) part → KeepsOr I E (perform part : Act σ Unit))
    {regions : List Placement} (hr : ∀ region ∈ regions, region ∈ loaded.model.inputs) :
    KeepsOr I E (writeInputs inputs regions : Act σ Unit) := by
  induction regions with
  | nil => exact Keeps.pure.or
  | cons region rest ih =>
    apply keepsOr_getDriver hI
    intro generation outstanding
    dsimp only
    split
    · exact Keeps.fail.or
    · refine keepsOr_ofSpec fun capacity hcap => KeepsOr.require fun hfits => ?_
      refine keepsOr_ofSpec fun address ha => ?_
      have hcap := AddressUnits.scalar_eq_ok_iff.mp hcap
      have hpart : d.Makes (.run inputs) (.write .dram0 address _) :=
        .input hl (hr region (List.mem_cons_self ..)) ⟨ha, hcap ▸ hfits⟩
      exact KeepsOr.bind (h _ hpart) fun _ =>
        ih fun region hr' => hr region (List.mem_cons_of_mem _ hr')

theorem keepsOr_readOutputs {inputs : Tensors}
    (h : ∀ part, d.Makes (.run inputs) part → KeepsOr I E (perform part : Act σ Unit))
    {done : Tensors} {regions : List Placement} :
    KeepsOr I E (readOutputs done regions : Act σ Tensors) := by
  induction regions generalizing done with
  | nil => exact Keeps.pure.or
  | cons region rest ih =>
    apply keepsOr_getDriver hI
    intro generation outstanding
    refine keepsOr_ofSpec fun address _ => keepsOr_ofSpec fun length _ => ?_
    exact KeepsOr.bind (KeepsOr.discard_iff.mp (h _ (.output address length.val))) fun _ => ih

theorem keepsOr_run {inputs : Tensors}
    (h : ∀ part, d.Makes (.run inputs) part → KeepsOr I E (perform part : Act σ Unit)) :
    KeepsOr I E (perform (.run inputs) : Act σ Unit) := by
  apply KeepsOr.discard_iff.mpr
  refine KeepsOr.bind keepsOr_ensureOpen fun _ => keepsOr_getDriver hI fun generation outstanding =>
    ?_
  split
  · exact Keeps.fail.or
  · rename_i loaded hl
    refine KeepsOr.bind (keepsOr_writeInputs hI hl h fun _ hr => hr) fun _ => ?_
    refine KeepsOr.bind (KeepsOr.discard_iff.mp (h _ (.program hl))) fun _ => ?_
    exact KeepsOr.bind (keepsOr_readOutputs hI h) fun _ => Keeps.pure.or

theorem keepsOr_loadConsts {base : RowAddress} {size : UInt64}
    (h : ∀ part, d.Makes (.loadConsts base size) part → KeepsOr I E (perform part : Act σ Unit)) :
    KeepsOr I E (loadConsts base size : Act σ Unit) := by
  unfold loadConsts
  split
  · exact Keeps.pure.or
  · rename_i hsize
    refine keepsOr_getDriver hI fun generation outstanding => keepsOr_ofSpec fun _ hd =>
      keepsOr_ofSpec fun _ hs => ?_
    exact h _ (.loadConsts hsize hd hs)

theorem keepsOr_prepareModel {files : Files} {path : String}
    (h : ∀ part, d.Makes (.loadModel files path) part → KeepsOr I E (perform part : Act σ Unit)) :
    KeepsOr I E (prepareModel files path : Act σ LoadedModel) := by
  have hstage : ∀ consts, KeepsOr I E (stageConsts files path consts : Act σ Unit) := by
    intro consts
    induction consts with
    | nil => exact Keeps.pure.or
    | cons c rest ih =>
      refine keepsOr_getDriver hI fun generation outstanding => keepsOr_ofSpec fun _ _ => ?_
      refine KeepsOr.bind keepsOr_readFile fun data => keepsOr_ofSpec fun offset _ => ?_
      exact KeepsOr.bind (h _ (.constData offset data)) fun _ => ih
  have hload : ∀ consts, KeepsOr I E (loadAllConsts consts : Act σ Unit) := by
    intro consts
    induction consts with
    | nil => exact Keeps.pure.or
    | cons c rest ih => exact KeepsOr.bind (h _ (.constRows ⟨c.base⟩ c.size)) fun _ => ih
  refine KeepsOr.bind keepsOr_ensureOpen fun _ => KeepsOr.bind ?_ fun model => ?_
  · unfold readModel
    split
    · exact Keeps.ofExcept.or
    · exact Keeps.fail.or
  refine keepsOr_getDriver hI fun generation outstanding => KeepsOr.require fun _ => ?_
  refine KeepsOr.bind ?_ fun _ => KeepsOr.bind (hstage _) fun _ => ?_
  · apply keepsOr_getDriver hI
    intro generation outstanding
    dsimp only
    split
    · exact Keeps.fail.or
    · exact Keeps.pure.or
  have hrest : KeepsOr I E (do
      let program ← readFile files (Files.beside path model.prog.fileName)
      Action.require (program.length % d.layout.instructionBytes = 0)
        (.decode (.truncated program.length d.layout.instructionBytes))
      return ⟨model, program, path⟩ : Act σ LoadedModel) :=
    KeepsOr.bind keepsOr_readFile fun _ => KeepsOr.require fun _ => Keeps.pure.or
  split
  · exact KeepsOr.bind (hload _) fun _ => hrest
  · exact hrest

end Of

/-- What is kept by the simple operations of a kind is kept by all of that kind, if a kind has with
an operation those that it is made of. -/
theorem keepsOr_perform {A : Operation → Prop}
    (parts : ∀ op part, A op → d.Makes op part → A part)
    (simple : ∀ op, op.Simple → A op → KeepsOr I E (perform op : Act σ Unit)) {op : Operation}
    (h : A op) (hload : ∀ files path, op ≠ .loadModel files path) (hclose : op ≠ .close) :
    KeepsOr I E (perform op : Act σ Unit) := by
  have hprogram : ∀ program, A (.executeProgram program) →
      KeepsOr I E (perform (.executeProgram program) : Act σ Unit) := by
    intro program ha
    apply KeepsOr.discard_iff.mpr
    refine keepsOr_assemble hI fun stream hs => KeepsOr.discard_iff.mp ?_
    exact simple (.executeStream stream) trivial (parts _ _ ha (.executeProgram hs))
  cases op with
  | write | writeBytes | read | compare | dmaWrite | executeStream => exact simple _ trivial h
  | writeInstructions program =>
    refine keepsOr_assemble hI fun stream hs => ?_
    exact simple (.dmaWrite stream) trivial (parts _ _ h (.writeInstructions hs))
  | executeProgram program => exact hprogram program h
  | flush => exact simple (.executeStream []) trivial (parts _ _ h .flush)
  | configure registers => exact hprogram _ (parts _ _ h .configure)
  | loadConsts base size =>
    refine keepsOr_loadConsts hI fun part hp => ?_
    have ha := parts _ _ h hp
    cases hp with
    | loadConsts => exact hprogram _ ha
  | run inputs =>
    refine keepsOr_run hI fun part hp => ?_
    have ha := parts _ _ h hp
    cases hp with
    | input | program | output => exact simple _ trivial ha
  | loadModel files path => exact absurd rfl (hload files path)
  | close => exact absurd rfl hclose

theorem keepsOr_prepareModel_of_simple {A : Operation → Prop}
    (parts : ∀ op part, A op → d.Makes op part → A part)
    (simple : ∀ op, op.Simple → A op → KeepsOr I E (perform op : Act σ Unit)) {files : Files}
    {path : String} (h : A (.loadModel files path)) :
    KeepsOr I E (prepareModel files path : Act σ LoadedModel) := by
  refine keepsOr_prepareModel hI fun part hp => ?_
  have ha := parts _ _ h hp
  cases hp with
  | constData => exact simple _ trivial ha
  | constRows =>
    exact keepsOr_perform hI parts simple ha (fun _ _ he => nomatch he) fun he => nomatch he

def load (h : Driving σ) (loaded : LoadedModel) : Driving σ :=
  { h with driver := { h.driver with loaded := some loaded } }

omit hI in
theorem loadModel_run (files : Files) (path : String) (h : Driving σ) :
    (loadModel files path).run h =
      match (prepareModel files path).run h with
      | (.ok loaded, t) => (.ok (), t.load loaded)
      | (.error e, t) => (.error e, t) := by
  rw [loadModel_eq, Action.bind_run]
  rcases (prepareModel files path).run h with ⟨_ | _, _⟩ <;> rfl

omit hI in
theorem prepareModel_run_of_error {files : Files} {path : String} {h t : Driving σ}
    {e : DriverError} (hrun : (loadModel files path).run h = (.error e, t)) :
    (prepareModel files path).run h = (.error e, t) := by
  rw [loadModel_run] at hrun
  cases hp : (prepareModel files path).run h with
  | mk r u =>
    rw [hp] at hrun
    cases r with
    | ok loaded => cases hrun
    | error e' =>
      cases hrun
      rfl

omit hI in
theorem prepareModel_run_of_ok {files : Files} {path : String} {h t : Driving σ}
    (hrun : (loadModel files path).run h = (.ok (), t)) :
    ∃ loaded u, (prepareModel files path).run h = (.ok loaded, u) ∧ t = u.load loaded := by
  rw [loadModel_run] at hrun
  cases hp : (prepareModel files path).run h with
  | mk r u =>
    rw [hp] at hrun
    cases r with
    | error e => cases hrun
    | ok loaded =>
      cases hrun
      exact ⟨loaded, u, rfl, rfl⟩

omit hI in
theorem loadModel_run_of_consts_nil {files : Files} {path text : String} {model : Model}
    {program : List UInt8} {h : Driving σ} (hopen : h.driver.closed = false)
    (htext : files.readText? path = some text) (hmodel : Model.parse text = .ok model)
    (harch : model.arch = h.driver.arch) (hconsts : model.consts = [])
    (hplaced : misplaced? h.driver.target (model.inputs ++ model.outputs) = none)
    (hprogram : files.read? (Files.beside path model.prog.fileName) = some program)
    (hwhole : program.length % h.driver.layout.instructionBytes = 0) :
    (loadModel files path).run h = (.ok (), h.load ⟨model, program, path⟩) := by
  have hmodel := Driver.admits?_eq_some htext hmodel harch hplaced
  have hfile : (readFile files (Files.beside path model.prog.fileName) : Act σ _) =
      pure program := by
    simp only [readFile, hprogram]
  rw [loadModel_run, prepareModel_run_of_admits? hopen hmodel]
  simp only [transferModel, Action.bind_run, hconsts, stageConsts, loadAllConsts, pure_bind,
    ite_self, hfile, Action.require_run, if_pos hwhole]
  rfl

theorem triple_prepareModel {files : Files} {path : String} :
    Triple I (prepareModel files path : Act σ LoadedModel) (fun loaded _ => d.Takes loaded)
      fun _ => True := by
  have hmodel : Keeps I (readModel files path : Act σ Model) := by
    unfold readModel
    split
    · exact Keeps.ofExcept
    · exact Keeps.fail
  refine Triple.bind (Q := fun _ => I) ?_ fun _ => ?_
  · exact (Keeps.bind Keeps.view fun _ => Keeps.require).weaken (fun _ h => h) (fun _ _ h => h)
      fun _ _ => trivial
  refine (hmodel.weaken (fun _ h => h) (fun _ _ h => h) fun _ _ => trivial).bind fun model => ?_
  refine Triple.bind (Q := fun (e : Driver) h => e.layout = d.layout ∧ I h)
    (Triple.view fun h hh => ⟨?_, hh⟩) fun e => Triple.assume fun hlayout => ?_
  · obtain ⟨generation, outstanding, hd⟩ := hI h hh
    rw [hd]
    rfl
  refine Triple.bind (Q := fun _ => I) (Triple.require (fun _ _ h => h) fun _ _ _ => trivial)
    fun _ => ?_
  refine Triple.bind
    (Q := fun _ _ => misplaced? d.target (model.inputs ++ model.outputs) = none ∧ True) ?_
    fun _ => Triple.assume fun hplaced => ?_
  · refine Triple.bind (Q := fun (e : Driver) _ => e.target = d.target ∧ True)
      (Triple.view fun h hh => ⟨?_, trivial⟩) fun e => Triple.assume fun htarget => ?_
    · obtain ⟨generation, outstanding, hd⟩ := hI h hh
      rw [hd]
      rfl
    · dsimp only
      split
      · exact Triple.fail fun _ _ => trivial
      · rename_i hnone
        exact Triple.pure fun _ _ => ⟨htarget ▸ hnone, trivial⟩
  refine Triple.top.bind fun _ => ?_
  have hrest : Triple (fun _ => True) (do
      let program ← readFile files (Files.beside path model.prog.fileName)
      Action.require (program.length % e.layout.instructionBytes = 0)
        (.decode (.truncated program.length e.layout.instructionBytes))
      return ⟨model, program, path⟩ : Act σ LoadedModel)
      (fun loaded _ => d.Takes loaded) fun _ => True :=
    Triple.top.bind fun program => Triple.bind
      (Triple.require (Q := fun _ _ => program.length % e.layout.instructionBytes = 0)
        (fun _ h _ => h) fun _ _ _ => trivial)
      fun _ => Triple.pure fun _ h => ⟨hplaced, hlayout ▸ h⟩
  split
  · exact Triple.top.bind fun _ => hrest
  · exact hrest

theorem after_loadModel {files : Files} {path : String}
    (h : KeepsOr I E (prepareModel files path : Act σ LoadedModel)) {s : Driving σ} (hs : I s) :
    (I (s.after (.loadModel files path)) ∨
      ∃ t loaded, I t ∧ s.after (.loadModel files path) = t.load loaded ∧ d.Takes loaded) ∨
      ∃ e, ((perform (.loadModel files path)).run s).1 = .error e ∧
        E e (s.after (.loadModel files path)) := by
  have hkeep := h s hs
  have hplaced := (triple_prepareModel hI : Triple I (prepareModel files path) _ _) s hs
  change (I ((loadModel files path).run s).2 ∨ ∃ t loaded, I t ∧
    ((loadModel files path).run s).2 = _ ∧ _) ∨
    ∃ e, ((loadModel files path).run s).1 = .error e ∧ E e ((loadModel files path).run s).2
  rw [loadModel_run]
  cases hr : (prepareModel files path).run s with
  | mk r t =>
    rw [hr] at hkeep hplaced
    cases r with
    | ok loaded =>
      rcases hkeep with ht | ⟨_, he, _⟩
      · exact .inl (.inr ⟨t, loaded, ht, rfl, hplaced⟩)
      · cases he
    | error e =>
      rcases hkeep with ht | ⟨_, he, hE⟩
      · exact .inl (.inl ht)
      · cases he
        exact .inr ⟨e, rfl, hE⟩

/-- An operation that is made of others of its kind keeps what these keep. One that loads a model
replaces it in the end. -/
theorem after_of_simple {A : Operation → Prop}
    (parts : ∀ op part, A op → d.Makes op part → A part)
    (simple : ∀ op, op.Simple → A op → KeepsOr I E (perform op : Act σ Unit)) {op : Operation}
    (h : A op) (hclose : op ≠ .close) {s : Driving σ} (hs : I s) :
    (I (s.after op) ∨ ∃ t loaded, I t ∧ s.after op = t.load loaded ∧ d.Takes loaded) ∨
      ∃ e, ((perform op).run s).1 = .error e ∧ E e (s.after op) := by
  by_cases hload : ∃ files path, op = .loadModel files path
  · obtain ⟨files, path, rfl⟩ := hload
    exact after_loadModel hI (keepsOr_prepareModel_of_simple hI parts simple h) hs
  · have hk := keepsOr_perform hI parts simple h (fun files path he => hload ⟨files, path, he⟩)
      hclose
    exact (hk s hs).imp .inl id

end Parts

end Driving

end TensorUnit.Host
