import TensorUnit.Proofs.Host.Parts

namespace TensorUnit.Host

open TensorUnit.Action (Triple Keeps KeepsOr)
open Remote (Service RemoteError execute maxPayload)

variable {σ α : Type} [Service σ] {P E : σ → Prop}

def Writable (P E : σ → Prop) (buffer : String) : Prop :=
  ∀ position chunk, Triple P
    (execute [.bufferWrite buffer position chunk] : Action σ RemoteError _) (fun _ => P) E

def Readable (P E : σ → Prop) (buffer : String) : Prop :=
  ∀ position length, Triple P
    (execute [.bufferRead buffer position length] : Action σ RemoteError _) (fun _ => P) E

def Storable (P E : σ → Prop) (buffer : String) : Prop :=
  ∀ offset data size,
    Triple P (writeChunked buffer offset data size : Action σ DriverError _) (fun _ => P) E

def Loadable (P E : σ → Prop) (m : Mem) : Prop :=
  ∀ address length, Triple P (m.read address length : Action σ DriverError _) (fun _ => P) E

section Transfers

variable (hE : ∀ s, P s → E s)
include hE

omit [Service σ] in
theorem triple_check {r : Except DriverError α} :
    Triple P (Action.ofExcept r) (fun _ => P) E :=
  Triple.ofExcept (fun _ _ _ h => h) hE

omit [Service σ] in
theorem triple_checkSpec {r : Except SpecError α} :
    Triple P (ofSpec r : Action σ DriverError α) (fun _ => P) E :=
  triple_check hE

theorem triple_requireUp : Triple P (requireUp : Action σ DriverError Unit) (fun _ => P) E := by
  apply Triple.bind (Q := fun _ => P) (Triple.view fun _ h => h)
  intro up
  exact Triple.require (fun _ _ h => h) fun s _ => hE s

theorem Writable.storable {buffer : String} (hw : Writable P E buffer) : Storable P E buffer :=
  fun _ _ _ => Writes.chunked (I := fun _ => P) (fun _ _ _ _ _ _ => hw _ _) hE

variable {m : Mem}

theorem triple_rawOver {offset : ByteOffset} {bytes : List UInt8}
    (h : Triple P (writeChunked m.name offset.val bytes m.chunkSize) (fun _ => P) E) :
    Triple P (m.writeRaw offset bytes) (fun _ => P) E :=
  (triple_check hE).bind fun _ => h.bind fun _ => Triple.pure fun _ h => h

theorem triple_writeOver {address : ScalarAddress} {values : List Int}
    (h : ∀ bytes offset, m.dataType.toBytes values = .ok bytes →
      m.units.bytes address = .ok offset →
      Triple P (writeChunked m.name offset.val bytes m.chunkSize) (fun _ => P) E) :
    Triple P (m.write address values) (fun _ => P) E := by
  refine Triple.bind (Q := fun bytes s => m.dataType.toBytes values = .ok bytes ∧ P s)
    (triple_ofSpec (fun _ _ hb hp => ⟨hb, hp⟩) hE) fun bytes => Triple.assume fun hb => ?_
  refine Triple.bind (Q := fun offset s => m.units.bytes address = .ok offset ∧ P s)
    (triple_ofSpec (fun _ _ ho hp => ⟨ho, hp⟩) hE) fun offset => Triple.assume fun ho => ?_
  exact triple_rawOver hE (h bytes offset hb ho)

theorem triple_writeBytesOver {offset : ByteOffset} {bytes : List UInt8}
    (h : Triple P (writeChunked m.name offset.val bytes m.chunkSize) (fun _ => P) E) :
    Triple P (m.writeBytes offset bytes) (fun _ => P) E :=
  (triple_checkSpec hE).bind fun _ => (triple_checkSpec hE).bind fun _ => triple_rawOver hE h

theorem Storable.write (hw : Storable P E m.name) {address : ScalarAddress} {values : List Int} :
    Triple P (m.write address values) (fun _ => P) E :=
  triple_writeOver hE fun _ _ _ _ => hw _ _ _

theorem Storable.writeBytes (hw : Storable P E m.name) {offset : ByteOffset}
    {bytes : List UInt8} : Triple P (m.writeBytes offset bytes) (fun _ => P) E :=
  triple_writeBytesOver hE (hw _ _ _)

theorem triple_windows {size : Nat} (hr : ∀ position length, length.toNat ≤ size → Triple P
      (execute [.bufferRead m.name position length] : Action σ RemoteError _) (fun _ => P) E)
    {offset : UInt64} {total : Nat} {count index : Nat} {done : List (List UInt8)} :
    Triple P (m.readWindows offset total size index done count) (fun _ => P) E := by
  induction count generalizing index done with
  | zero => exact Triple.pure fun _ h => h
  | succ count ih =>
    have hsize : (UInt64.ofNat (Mem.window total size index).2).toNat ≤ size := by
      rw [UInt64.toNat_ofNat']
      exact Nat.le_trans (Nat.mod_le ..) (Nat.min_le_left ..)
    refine Triple.bind (Q := fun _ => P)
      ((Triple.mapError (hr _ _ hsize)).bind fun responses => ?_) fun _ => ih
    split
    · exact Triple.pure fun _ h => h
    · exact Triple.fail hE

theorem Readable.windows (hr : Readable P E m.name) {offset : UInt64} {total size : Nat}
    {count index : Nat} {done : List (List UInt8)} :
    Triple P (m.readWindows offset total size index done count) (fun _ => P) E :=
  triple_windows hE fun position length _ => hr position length

theorem Loadable.of_windows (hr : ∀ limit offset total count,
    Triple (fun s => maxPayload s = limit ∧ P s)
      (m.readWindows offset total (m.readSize limit) 0 [] count) (fun _ => P) E) :
    Loadable P E m := by
  intro address length
  refine (triple_checkSpec hE).bind fun _ => (triple_check hE).bind fun _ => ?_
  refine (triple_requireUp hE).bind fun _ => ?_
  refine Triple.bind (Q := fun _ => P) (Triple.require (fun _ _ h => h) fun s _ => hE s) fun _ => ?_
  refine Triple.bind
    (Q := fun size s => ∃ limit, m.readSize limit = size ∧ maxPayload s = limit ∧ P s)
    (Triple.view fun s h => ⟨_, rfl, rfl, h⟩) fun size => Triple.exists fun limit =>
      Triple.assume fun hsize => ?_
  subst hsize
  exact (hr _ _ _ _).bind fun _ => Triple.pure fun _ h => h

theorem Readable.loadable (hr : Readable P E m.name) : Loadable P E m :=
  .of_windows hE fun _ _ _ _ => (hr.windows hE).strengthen fun _ h => h.2

omit hE in
theorem Loadable.compare (hr : Loadable P E m) {address : ScalarAddress}
    {expected : List Int} : Triple P (m.compare address expected) (fun _ => P) E :=
  (hr _ _).bind fun _ => Triple.pure fun _ h => h

end Transfers

namespace Probing

def Over (d : Driver) (P : σ → Prop) (s : Probing σ) : Prop :=
  (∃ generation outstanding, s.probe = (d.probing generation outstanding).probe) ∧ P s.remote

variable {d : Driver}

omit [Service σ] in
theorem Over.mono (hE : ∀ s, P s → E s) : ∀ s, Over d P s → Over d E s :=
  fun _ h => ⟨h.1, hE _ h.2⟩

omit [Service σ] in
theorem triple_over {Q : σ → Prop} {a : Action σ DriverError α} (h : Triple P a (fun _ => Q) E) :
    Triple (Over d P) (onRemote a) (fun _ => Over d Q) (Over d E) := by
  intro s hs
  have hr := h s.remote hs.2
  rw [onRemote_run]
  cases ha : a.run s.remote with
  | mk r remote =>
    rw [ha] at hr
    cases r with
    | ok x => exact ⟨hs.1, hr⟩
    | error e => exact ⟨hs.1, hr⟩

omit [Service σ] in
theorem triple_setOutstanding {outstanding : Bool} {F : Probing σ → Prop} :
    Triple (Over d P) (setOutstanding outstanding) (fun _ => Over d P) F := by
  apply Triple.update
  rintro s ⟨⟨generation, _, hp⟩, hr⟩
  refine ⟨⟨generation, outstanding, ?_⟩, hr⟩
  change { s.probe with outstanding } = _
  rw [hp]
  rfl

variable (hE : ∀ s, P s → E s) {m : Mem}
include hE

theorem triple_armOver (hw : Storable P E m.name) :
    Triple (Over d P) (arm m) (fun _ => Over d P) (Over d E) := by
  have hspec : ∀ {β : Type} {r : Except SpecError β},
      Triple (Over d P) (ofSpec r : Act σ β) (fun _ => Over d P) (Over d E) :=
    triple_checkSpec (Over.mono hE)
  apply Triple.bind (Q := fun _ => Over d P) (Triple.view fun _ h => h)
  intro _
  refine Triple.bind (Q := fun _ => Over d P)
    (Triple.require (fun _ _ h => h) fun _ _ => Over.mono hE _) fun _ => ?_
  refine Triple.bind (Q := fun _ => Over d P) (Triple.update ?_) fun _ => ?_
  · rintro s ⟨⟨generation, outstanding, hp⟩, hr⟩
    refine ⟨⟨generation + 1, outstanding, ?_⟩, hr⟩
    change s.probe.advance = _
    rw [hp]
    rfl
  apply Triple.bind (Q := fun _ => Over d P) (Triple.view fun _ h => h)
  intro _
  refine hspec.bind fun _ => hspec.bind fun _ => hspec.bind fun _ => ?_
  exact (triple_over (hw.write hE)).bind fun _ => hspec.bind fun _ => triple_over (hw.write hE)

theorem triple_observedOver (hr : Loadable P E m) :
    Triple (Over d P) (isObserved m) (fun _ => Over d P) (Over d E) := by
  apply Triple.bind (Q := fun _ => Over d P) (Triple.view fun _ h => h)
  intro _
  refine (triple_checkSpec (Over.mono hE)).bind fun _ => ?_
  exact (triple_checkSpec (Over.mono hE)).bind fun _ => triple_over hr.compare

theorem triple_pollOver (hr : Loadable P E m) {polls more : Nat} :
    Triple (Over d P) (poll m polls more) (fun _ => Over d P) (Over d E) := by
  induction more generalizing polls with
  | zero => exact Triple.fail (Over.mono hE)
  | succ more ih =>
    apply (triple_observedOver hE hr).bind
    intro seen
    cases seen with
    | false => exact ih
    | true => exact triple_setOutstanding.bind fun _ => Triple.pure fun _ h => h

theorem triple_waitOver (hr : Loadable P E m) {policy : FlushPolicy} :
    Triple (Over d P) (wait m policy) (fun _ => Over d P) (Over d E) :=
  triple_setOutstanding.bind fun _ => Triple.viewed fun _ => triple_pollOver hE hr

theorem triple_settleOver (hr : Loadable P E m) {policy : FlushPolicy} :
    Triple (Over d P) (settle m policy) (fun _ => Over d P) (Over d E) := by
  apply Triple.bind (Q := fun _ => Over d P) (Triple.view fun _ h => h)
  intro p
  split
  · exact (triple_waitOver hE hr).bind fun _ => Triple.pure fun _ h => h
  · exact Triple.pure fun _ h => h

end Probing

namespace Driving

def Over (d : Driver) (P : σ → Prop) (h : Driving σ) : Prop :=
  (∃ generation outstanding, h.driver = d.probing generation outstanding) ∧ P h.remote

variable {d : Driver}

omit [Service σ] in
theorem Over.mono (hE : ∀ s, P s → E s) : ∀ h, Over d P h → Over d E h :=
  fun _ h => ⟨h.1, hE _ h.2⟩

omit [Service σ] in
theorem over_iff {h : Driving σ} :
    Over d P h ↔ ∃ generation outstanding, With (d.probing generation outstanding) P h :=
  ⟨fun ⟨⟨generation, outstanding, hd⟩, hp⟩ => ⟨generation, outstanding, hd, hp⟩,
    fun ⟨generation, outstanding, hd, hp⟩ => ⟨⟨generation, outstanding, hd⟩, hp⟩⟩

omit [Service σ] in
theorem triple_over {a : Act σ α} {Q E : σ → Prop}
    (h : ∀ generation outstanding, Triple (With (d.probing generation outstanding) P) a
      (fun _ => With (d.probing generation outstanding) Q)
      (With (d.probing generation outstanding) E)) :
    Triple (Over d P) a (fun _ => Over d Q) (Over d E) := by
  have hover : ∀ {R : σ → Prop} {g o s}, With (d.probing g o) R s → Over d R s :=
    fun hs => over_iff.mpr ⟨_, _, hs⟩
  refine Triple.strengthen (Triple.exists fun g => Triple.exists fun o => ?_)
    fun _ hs => over_iff.mp hs
  exact (h g o).weaken (fun _ h => h) (fun _ _ => hover) fun _ => hover

omit [Service σ] in
theorem triple_remoteOver {Q : σ → Prop} {a : Action σ DriverError α}
    (h : Triple P a (fun _ => Q) E) :
    Triple (Over d P) (onRemote a) (fun _ => Over d Q) (Over d E) :=
  triple_over fun _ _ => triple_with h

omit [Service σ] in
theorem triple_probeOver {Q : σ → Prop} {a : Probing.Act σ α}
    (h : Triple (Probing.Over d P) a (fun _ => Probing.Over d Q) (Probing.Over d E)) :
    Triple (Over d P) (onProbe a) (fun _ => Over d Q) (Over d E) := by
  rintro s ⟨⟨generation, outstanding, hd⟩, hp⟩
  have hr := h ⟨s.driver.probe, s.remote⟩ ⟨⟨generation, outstanding, by rw [hd]⟩, hp⟩
  have hover : ∀ {t : Probing σ} {Q : σ → Prop}, Probing.Over d Q t →
      Over d Q ⟨{ s.driver with probe := t.probe }, t.remote⟩ := by
    rintro t Q ⟨⟨g, o, hprobe⟩, hq⟩
    refine ⟨⟨g, o, ?_⟩, hq⟩
    change { s.driver with probe := t.probe } = _
    rw [hprobe, hd]
    rfl
  rw [onProbe_run]
  cases ha : a.run ⟨s.driver.probe, s.remote⟩ with
  | mk r t =>
    rw [ha] at hr
    cases r with
    | ok x => exact hover hr
    | error e => exact hover hr

omit [Service σ] in
theorem triple_driverOver {f : Driver → Act σ α} {Q : α → Driving σ → Prop}
    {F : Driving σ → Prop}
    (h : ∀ generation outstanding,
      Triple (Over d P) (f (d.probing generation outstanding)) Q F) :
    Triple (Over d P) (getDriver >>= f) Q F := by
  rintro s hs
  obtain ⟨generation, outstanding, hd⟩ := hs.1
  have hf := h generation outstanding s hs
  rw [← hd] at hf
  exact hf

variable (hE : ∀ s, P s → E s)
include hE

omit [Service σ] in
theorem triple_openOver :
    Triple (Over d P) (ensureOpen : Act σ Unit) (fun _ => Over d P) (Over d E) := by
  apply triple_driverOver
  intro generation outstanding
  exact Triple.require (fun _ _ h => h) fun _ _ => Over.mono hE _

omit [Service σ] in
theorem triple_accessOver {bank : Bank} {f : Mem → Action σ DriverError α}
    (h : Triple P (f (d.mem bank)) (fun _ => P) E) :
    Triple (Over d P) (do
      ensureOpen
      let d ← getDriver
      onRemote (f (d.mem bank))) (fun _ => Over d P) (Over d E) :=
  triple_over fun _ _ => triple_accessWith hE (by cases bank <;> exact h)

omit hE in
theorem keepsOr_executeStream {stream : List UInt8} {F : DriverError → Driving σ → Prop}
    (hw : Storable P P d.dram0.name) (hr : Loadable P P d.dram0)
    (hsend : ∀ probe, stream.length % d.layout.instructionBytes = 0 →
      Tcu.assemble d.layout d.probe.instructions = .ok probe →
      KeepsOr (Over d P) F (dmaWrite (stream ++ probe))) :
    KeepsOr (Over d P) F (executeStream stream) := by
  have hid : ∀ s, P s → P s := fun _ h => h
  have hI : ∀ h : Driving σ, Over d P h → _ := fun _ h => h.1
  refine KeepsOr.bind keepsOr_ensureOpen fun _ => keepsOr_getDriver hI fun _ _ =>
    KeepsOr.require fun hm => ?_
  have hsettle : Keeps (Over d P) (onProbe (Probing.settle d.dram0 d.config.flush)) :=
    triple_probeOver (Probing.triple_settleOver hid hr)
  have harm : Keeps (Over d P) (onProbe (Probing.arm d.dram0)) :=
    triple_probeOver (Probing.triple_armOver hid hw)
  have hwait : Keeps (Over d P) (onProbe (Probing.wait d.dram0 d.config.flush)) :=
    triple_probeOver (Probing.triple_waitOver hid hr)
  refine hsettle.or.bind fun _ => harm.or.bind fun _ => keepsOr_assemble hI fun probe hp => ?_
  exact (hsend probe hm hp).bind fun _ => hwait.or

omit hE in
theorem keeps_call {batch : Remote.Batch}
    (h : Keeps P (execute batch : Action σ RemoteError _)) : Keeps (Over d P) (call batch) :=
  triple_remoteOver (Triple.mapError h)

omit hE in
theorem keeps_sendStaged {stream : List UInt8} (hw : Storable P P d.config.stagingBuffer)
    (hsend : Keeps P (execute [.dmaWrite d.config.dmaChannel d.config.stagingBuffer,
      .dmaWait d.config.dmaChannel d.config.dmaWaitTimeout] : Action σ RemoteError _)) :
    Keeps (Over d P) (sendStaged stream) := by
  apply triple_driverOver
  intro _ _
  exact (triple_remoteOver (hw _ _ _)).bind fun _ => (keeps_call hsend).bind fun _ => Keeps.pure

omit hE in
theorem keeps_dmaWrite {stream : List UInt8}
    (halloc : ∀ size, Keeps P
      (execute [.bufferAlloc d.config.stagingBuffer size] : Action σ RemoteError _))
    (hw : Storable P P d.config.stagingBuffer)
    (hsend : Keeps P (execute [.dmaWrite d.config.dmaChannel d.config.stagingBuffer,
      .dmaWait d.config.dmaChannel d.config.dmaWaitTimeout] : Action σ RemoteError _))
    (hdealloc : Keeps P
      (execute [.bufferDealloc d.config.stagingBuffer] : Action σ RemoteError _)) :
    Keeps (Over d P) (dmaWrite stream) := by
  refine (triple_openOver fun _ h => h).bind fun _ => ?_
  split
  · exact Keeps.pure
  · apply triple_driverOver
    intro _ _
    refine (keeps_call (halloc _)).bind fun _ => ?_
    refine Keeps.bind (Keeps.attempt (keeps_sendStaged hw hsend)) fun sent => ?_
    refine Keeps.bind (Keeps.attempt (keeps_call hdealloc)) fun released => ?_
    exact Keeps.ofExcept.bind fun _ => Keeps.ofExcept.bind fun _ => Keeps.pure

omit hE in
theorem keepsOr_simple {F : DriverError → Driving σ → Prop}
    (hw : ∀ bank, Storable P P (d.mem bank).name) (hr : ∀ bank, Loadable P P (d.mem bank))
    {op : Operation} (hop : op.Simple)
    (hdma : ∀ stream, op = .dmaWrite stream → KeepsOr (Over d P) F (dmaWrite stream))
    (hstream : ∀ stream probe, op = .executeStream stream →
      stream.length % d.layout.instructionBytes = 0 →
      Tcu.assemble d.layout d.probe.instructions = .ok probe →
      KeepsOr (Over d P) F (dmaWrite (stream ++ probe))) :
    KeepsOr (Over d P) F (perform op) := by
  have hid : ∀ s, P s → P s := fun _ h => h
  cases op with
  | write bank address values =>
    exact Keeps.or (triple_accessOver hid (f := fun m => m.write address values)
      ((hw bank).write hid))
  | writeBytes bank offset bytes =>
    exact Keeps.or (triple_accessOver hid (f := fun m => m.writeBytes offset bytes)
      ((hw bank).writeBytes hid))
  | read bank address length =>
    exact KeepsOr.discard_iff.mpr (Keeps.or (triple_accessOver hid
      (f := fun m => m.read address length) (hr bank _ _)))
  | compare bank address expected =>
    exact KeepsOr.discard_iff.mpr (Keeps.or (triple_accessOver hid
      (f := fun m => m.compare address expected) (hr bank).compare))
  | dmaWrite stream => exact hdma stream rfl
  | executeStream stream =>
    exact KeepsOr.discard_iff.mpr (keepsOr_executeStream (hw .dram0) (hr .dram0)
      fun probe hm hp => hstream stream probe rfl hm hp)
  | writeInstructions | executeProgram | flush | configure | loadConsts | loadModel | run | close =>
    exact hop.elim

omit hE in
/-- What the simple operations of a kind keep of the instance is kept by every operation of that
kind, and of the driver only the probe and the model may be others. -/
theorem after_of_keeps {h : Driving σ} {A : Operation → Prop}
    (parts : ∀ op part, A op → h.driver.Makes op part → A part)
    (simple : ∀ op, op.Simple → A op →
      KeepsOr (Over h.driver P) (fun _ _ => False) (perform op : Act σ Unit)) {op : Operation}
    (ha : A op) (hop : op ≠ .close) (hP : P h.remote) :
    (∃ generation outstanding loaded,
      (h.after op).driver = { h.driver.probing generation outstanding with loaded }) ∧
      P (h.after op).remote := by
  have hover : Over h.driver P h :=
    ⟨⟨h.driver.probe.generation, h.driver.probe.outstanding, rfl⟩, hP⟩
  rcases after_of_simple (fun _ ho => ho.1) parts simple ha hop hover with
    (⟨⟨g, o, hd⟩, hk⟩ | ⟨t, loaded, ⟨⟨g, o, hd⟩, hk⟩, he, _⟩) | ⟨_, _, hf⟩
  · exact ⟨⟨g, o, h.driver.loaded, hd⟩, hk⟩
  · rw [he]
    exact ⟨⟨g, o, loaded, congrArg (fun d : Driver => { d with loaded := some loaded }) hd⟩, hk⟩
  · exact hf.elim

omit hE in
theorem loaded_of_loadModel_error {files : Files} {path : String} {h t : Driving σ}
    {e : DriverError} (hrun : (loadModel files path).run h = (.error e, t)) :
    t.driver.loaded = h.driver.loaded := by
  have hdma : ∀ stream, Keeps (Over h.driver fun _ => True) (dmaWrite stream : Act σ Unit) :=
    fun _ => keeps_dmaWrite (fun _ => Triple.top) (fun _ _ _ => Triple.top) Triple.top Triple.top
  have hsimple : ∀ op : Operation, op.Simple → True →
      KeepsOr (Over h.driver fun _ => True) (fun _ _ => False) (perform op : Act σ Unit) :=
    fun op hop _ => keepsOr_simple (fun _ _ _ _ => Triple.top) (fun _ _ _ => Triple.top) hop
      (fun _ _ => (hdma _).or) fun _ _ _ _ _ => (hdma _).or
  have hkeep : KeepsOr (Over h.driver fun _ => True) (fun _ _ => False)
      (prepareModel files path : Act σ LoadedModel) :=
    keepsOr_prepareModel_of_simple (fun _ ho => ho.1) (A := fun _ => True)
      (fun _ _ _ _ => trivial) hsimple trivial
  have ht := hkeep.keeps.error ⟨⟨_, _, rfl⟩, trivial⟩ (prepareModel_run_of_error hrun)
  obtain ⟨⟨_, _, hd⟩, _⟩ := ht
  rw [hd]
  rfl

end Driving

end TensorUnit.Host
