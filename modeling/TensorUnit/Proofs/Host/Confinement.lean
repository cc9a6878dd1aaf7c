import TensorUnit.Proofs.FixedPoint
import TensorUnit.Proofs.Host.Access
import TensorUnit.Proofs.Host.Errors
import TensorUnit.Proofs.Host.Inputs

namespace TensorUnit.Host

open TensorUnit.Action (Triple Keeps Raises Outcome Confined)
open Remote Sim

/-- What a run of a model may fail with: an input is not there or too large, a call fails, or the
end of the program does not show up. -/
def DriverError.OfRun : DriverError → Prop
  | .missingInput _ | .inputTooLarge .. | .remote _ | .transfer .. | .synchronizationTimeout _ =>
    True
  | _ => False

section Calls

variable {σ α : Type} {K : σ → Prop}

theorem confined_spec {r : Except SpecError α} {β : Type} {f : α → Action σ DriverError β} {x : α}
    {C : DriverError → Prop} (h : r = .ok x) (hf : Confined K C (f x)) :
    Confined K C (ofSpec r >>= f) :=
  Confined.checked (by rw [h]; rfl) hf

variable [Service σ]

/-- The errors of a run are among some, and so is, where an instance takes smaller payloads than
others of some size, that a chunk is larger than a payload. -/
structure Allows (C : DriverError → Prop) (K : σ → Prop) (limit : Nat) : Prop where
  run : ∀ e, e.OfRun → C e
  payload : ∀ s, K s → maxPayload s < limit →
    ∀ size payload, C (.configuration (.chunkSize size payload))

theorem allows_run {limit : Nat} (h : ∀ s, K s → limit ≤ maxPayload s) :
    Allows DriverError.OfRun K limit :=
  ⟨fun _ he => he, fun s hs hlt => absurd (h s hs) (Nat.not_le.mpr hlt)⟩

theorem confined_requireUp :
    Confined K DriverError.OfRun (requireUp : Action σ DriverError Unit) :=
  Confined.view fun _ _ => Confined.require fun _ => trivial

theorem confined_call {batch : Batch}
    (h : Keeps K (execute batch : Action σ RemoteError (List Response))) :
    Confined K DriverError.OfRun ((execute batch).mapError .remote : Action σ DriverError _) :=
  (h.confined (C := fun _ => True) fun _ => trivial).mapError fun _ _ => trivial

theorem confined_writeChunked {C : DriverError → Prop} {limit : Nat} (hC : Allows C K limit)
    {buffer : String} {offset : UInt64} {data : List UInt8} {size : Nat} (hs : 0 < size)
    (hl : size ≤ limit)
    (hw : ∀ n chunk, n + chunk.length ≤ data.length →
      Keeps K (execute [.bufferWrite buffer (offset + .ofNat n) chunk] :
        Action σ RemoteError (List Response))) :
    Confined K C (writeChunked buffer offset data size : Action σ DriverError Nat) := by
  apply Confined.of_raises
  · exact Writes.chunked (I := fun _ => K) (fun n chunk _ _ hn _ => hw n chunk hn) fun _ h => h
  · refine Raises.bind confined_requireUp.success
      (confined_requireUp.failure.weaken (fun _ h => h) fun e _ h => hC.run e h.1) fun _ => ?_
    refine Raises.view fun s hs' => Raises.next ?_ fun _ =>
      raises_writeChunks fun _ _ _ => hC.run _ trivial
    unfold Action.require
    split
    · exact Raises.pure
    · exact Raises.fail fun _ _ => hC.payload s hs' (by omega) _ _

namespace Mem

structure Sized (limit : Nat) (m : Mem) : Prop where
  typed : m.Typed
  small : m.sizeBytes.toNat < byteLimit
  chunk : 0 < m.chunkSize
  payload : m.chunkSize ≤ limit

variable {m : Mem} {limit : Nat} (hm : m.Sized limit)
include hm

theorem Sized.confined_write {C : DriverError → Prop} (hC : Allows C K limit)
    {address : ScalarAddress} {values : List Int} (htakes : m.Takes address values)
    (hw : ∀ position chunk, address.val.toNat * m.dataType.scalarBytes ≤ position.toNat →
      position.toNat + chunk.length ≤
        (address.val.toNat + values.length) * m.dataType.scalarBytes →
      Keeps K (execute [.bufferWrite m.name position chunk] :
        Action σ RemoteError (List Response))) :
    Confined K C (m.write address values : Action σ DriverError Unit) := by
  have hsmall := hm.small
  have hfit := htakes.2
  simp only [byteLimit] at hsmall
  rw [Within, Nat.add_mul] at hfit
  rw [Nat.add_mul] at hw
  obtain ⟨offset, hstart, hwrite⟩ := htakes.write_eq (σ := σ) hm.typed
  rw [hwrite]
  refine Confined.bind ?_ fun _ => Confined.pure
  refine confined_writeChunked hC hm.chunk hm.payload fun n chunk hn => ?_
  rw [DataType.length_scalars] at hn
  have hposition : (offset + .ofNat n).toNat = offset.toNat + n := toNat_position (by omega)
  exact hw _ _ (by omega) (by omega)

theorem Sized.confined_read {address : ScalarAddress} {length : UInt64}
    (hfit : m.Within address.val.toNat length.toNat) (hr : Readable K K m.name) :
    Confined K DriverError.OfRun (m.read address length : Action σ DriverError (List Int)) := by
  have hsmall := hm.small
  have hlength := hfit
  rw [Within, Nat.add_mul] at hlength
  obtain ⟨offset, _, hread⟩ := hfit.read_eq (σ := σ) hm.typed
  rw [hread]
  refine confined_requireUp.bind fun _ => Confined.guard (fun hn => absurd (by omega) hn)
    fun _ => Confined.view fun _ _ => ?_
  refine Confined.bind ?_ fun _ => Confined.pure
  apply Confined.of_raises (hr.windows fun _ h => h)
  exact raises_readWindows fun _ => trivial

theorem Sized.confined_compare {address : ScalarAddress} {expected : List Int}
    (hfit : m.Within address.val.toNat expected.length) (hr : Readable K K m.name) :
    Confined K DriverError.OfRun (m.compare address expected : Action σ DriverError Bool) := by
  have hle : (UInt64.ofNat expected.length).toNat ≤ expected.length := by
    rw [UInt64.toNat_ofNat']
    exact Nat.mod_le ..
  refine (hm.confined_read (Nat.le_trans (Nat.mul_le_mul_right _ ?_) hfit) hr).bind fun _ =>
    Confined.pure
  exact Nat.add_le_add_left hle _

end Mem

end Calls

namespace Driver

variable (d : Driver) (limit : Nat) (loaded : LoadedModel)

/-- A driver as it is made: its parts fit, memory can hold its buffers, what it transfers at a time
fits into a payload, and the moves of its probe can be encoded. A model in it has passed the
checks. -/
structure WellMade : Prop where
  sound : d.Sound
  small : d.dram0.sizeBytes.toNat < byteLimit
  chunk : 0 < d.config.chunkSize.toNat
  payload : d.config.chunkSize.toNat ≤ limit
  probe : ∃ stream, Tcu.assemble d.layout d.probe.instructions = .ok stream
  takes : ∀ loaded, d.loaded = some loaded → d.Takes loaded

/-- The first row and the number of rows of each part of DRAM0 that a run of a model writes from the
host: the two rows of the probe and the inputs. -/
def runRows : List (Nat × Nat) :=
  (d.target.toNat, 2) :: loaded.model.inputs.map fun region =>
    (region.base.toNat, region.size.toNat)

def stagedBytes : Nat :=
  loaded.program.length + 2 * d.layout.instructionBytes

/-- What a run of a model may ask of the instance: it writes to DRAM0 within the rows of the probe
or of an input, and to the staging buffer within its size. -/
def Covers : Primitive → Prop
  | .bufferAlloc name size =>
    name = d.config.stagingBuffer ∧ size = .ofNat (d.stagedBytes loaded)
  | .bufferWrite name position data =>
    (name = d.config.dram0Buffer ∧ ∃ rows ∈ d.runRows loaded,
      rows.1 * d.arch.rowBytes ≤ position.toNat ∧
        position.toNat + data.length ≤ (rows.1 + rows.2) * d.arch.rowBytes) ∨
    (name = d.config.stagingBuffer ∧ position.toNat + data.length ≤ d.stagedBytes loaded)
  | _ => True

variable {d limit loaded}

theorem WellMade.placed (hd : d.WellMade limit) : d.Placed :=
  fun loaded hl => (hd.takes loaded hl).placed

theorem WellMade.name_dram0 (hd : d.WellMade limit) : d.dram0.name = d.config.dram0Buffer :=
  congrArg Mem.name (hd.sound.mem .dram0)

theorem WellMade.dataType_dram0 (hd : d.WellMade limit) : d.dram0.dataType = d.arch.dataType :=
  congrArg Mem.dataType (hd.sound.mem .dram0)

theorem WellMade.typed_dram0 (hd : d.WellMade limit) : d.dram0.Typed := by
  have hunits : d.dram0.units = d.arch.units := congrArg Mem.units (hd.sound.mem .dram0)
  rw [Mem.Typed, hunits, hd.dataType_dram0]
  exact toNat_scalarBytes d.arch

theorem WellMade.within_iff (hd : d.WellMade limit) {address length : Nat} :
    d.dram0.Within address length ↔
      (address + length) * d.arch.dataType.scalarBytes ≤ d.dram0.sizeBytes.toNat := by
  rw [Mem.Within, hd.dataType_dram0]

theorem WellMade.sized (hd : d.WellMade limit) : d.dram0.Sized limit := by
  have hchunk : d.dram0.chunkSize = d.config.chunkSize.toNat :=
    congrArg Mem.chunkSize (hd.sound.mem .dram0)
  exact ⟨hd.typed_dram0, hd.small, hchunk ▸ hd.chunk, hchunk ▸ hd.payload⟩

theorem WellMade.row_le (hd : d.WellMade limit) {row : Nat} (h : row ≤ d.arch.dram0Depth.toNat) :
    row * d.arch.rowBytes ≤ d.dram0.sizeBytes.toNat :=
  Nat.le_trans (Nat.mul_le_mul_right _ h) (hd.sound.fit.rows .dram0)

theorem WellMade.scalars_lt (hd : d.WellMade limit) {row : Nat}
    (h : row ≤ d.arch.dram0Depth.toNat) : row * d.arch.arraySize.toNat < 2 ^ 64 := by
  have hrow := hd.row_le h
  have hsmall := hd.small
  have hle := Nat.le_mul_of_pos_right (row * d.arch.arraySize.toNat)
    (scalarBytes_pos d.arch.dataType)
  rw [Architecture.rowBytes, ← Nat.mul_assoc] at hrow
  simp only [byteLimit] at hsmall
  omega

theorem WellMade.exists_scalar (hd : d.WellMade limit) {row : UInt64}
    (h : row.toNat ≤ d.arch.dram0Depth.toNat) :
    ∃ address, d.arch.units.scalar ⟨row⟩ = .ok address ∧
      address.val.toNat = row.toNat * d.arch.arraySize.toNat :=
  AddressUnits.exists_scalar (hd.scalars_lt h)

theorem WellMade.arraySize_lt (hd : d.WellMade limit) : d.arch.arraySize.toNat < scalarLimit := by
  have hrow := hd.row_le hd.sound.depth
  have hsmall := hd.small
  have hle := Nat.mul_le_mul_left d.arch.arraySize.toNat (two_le_scalarBytes d.arch.dataType)
  rw [Architecture.rowBytes] at hrow
  simp only [byteLimit, scalarLimit] at hsmall ⊢
  omega

end Driver

theorem Probe.holds_stamp {p : Probe} {dt : DataType} (h : p.maxRaw = dt.maxRaw) :
    dt.Holds p.stamp := by
  have hpos := p.stamp_pos
  have hmax := dt.one_le_maxRaw
  have hmin : dt.minRaw ≤ 0 := by cases dt <;> decide
  have hlt := Int.emod_lt_of_pos ((p.generation - 1 : Nat) : Int)
    (by omega : (0 : Int) < max p.maxRaw 1)
  rw [h, Int.max_eq_left hmax] at hlt
  refine ⟨by omega, ?_⟩
  rw [Probe.stamp, h, Int.max_eq_left hmax]
  omega

theorem DataType.holds_zero (dt : DataType) : dt.Holds 0 := by
  cases dt <;> decide

namespace Probing

def Beside {σ : Type} (B : Probe → Prop) (K : σ → Prop) (s : Probing σ) : Prop :=
  B s.probe ∧ K s.remote

theorem confined_onRemote {σ α : Type} {B : Probe → Prop} {K : σ → Prop} {C : DriverError → Prop}
    {a : Action σ DriverError α} (h : Confined K C a) : Confined (Beside B K) C (onRemote a) := by
  rw [Action.confined_iff] at h ⊢
  intro s hs
  rw [onRemote_run]
  exact ⟨(h s.remote hs.2).1, hs.1, (h s.remote hs.2).2⟩

end Probing

def Driver.Probes (d : Driver) (p : Probe) : Prop :=
  ∃ generation outstanding, p = { d.probe with generation, outstanding }

def Driver.Idle (d : Driver) (p : Probe) : Prop :=
  d.Probes p ∧ p.outstanding = false

section Run

variable {σ : Type} [Service σ] {K : σ → Prop} {C : DriverError → Prop} {d : Driver}
  {limit : Nat} {loaded : LoadedModel}
variable (hd : d.WellMade limit) (hC : Allows C K limit)
variable (hcall : ∀ batch : Batch, (∀ p ∈ batch, d.Covers loaded p) →
  Keeps K (execute batch : Action σ RemoteError (List Response)))

include hcall in
theorem readable_dram0 (name : String) : Readable K K name := by
  intro position length
  apply hcall
  simp [Driver.Covers]

section Rows

include hd

omit [Service σ] in
theorem Driver.Probes.facts {p : Probe} (hp : d.Probes p) :
    p.source.val = d.source ∧ p.target.val = d.target ∧ p.arraySize = d.arch.arraySize ∧
      p.maxRaw = d.arch.dataType.maxRaw := by
  obtain ⟨_, _, rfl⟩ := hp
  exact ⟨rfl, rfl, hd.sound.arraySize, hd.sound.maxRaw⟩

omit [Service σ] in
theorem Driver.Probes.row {p : Probe} (hp : d.Probes p) (v : Int) :
    p.row v = .ok (List.replicate d.arch.arraySize.toNat v) := by
  have ha := (hp.facts hd).2.2.1
  rw [Probe.row, ha, if_pos hd.arraySize_lt]

omit [Service σ] in
theorem Driver.Probes.exists_scalar {p : Probe} (hp : d.Probes p) {row : RowAddress}
    (h : row.val.toNat < d.arch.dram0Depth.toNat) :
    ∃ address, p.scalar row = .ok address ∧
      address.val.toNat = row.val.toNat * d.arch.arraySize.toNat := by
  have ha := (hp.facts hd).2.2.1
  have hlt := hd.scalars_lt (Nat.le_of_lt h)
  have hn := UInt64.toNat_ofNat_of_lt' hlt
  refine ⟨⟨.ofNat (row.val.toNat * d.arch.arraySize.toNat)⟩, ?_, hn⟩
  rw [Probe.scalar, ha, Exact.mul?_eq_some_iff.mpr hn.symm]
  rfl

omit [Service σ] in
theorem row_fits {row : UInt64} (h : row.toNat < d.arch.dram0Depth.toNat) {address : ScalarAddress}
    (ha : address.val.toNat = row.toNat * d.arch.arraySize.toNat) :
    (address.val.toNat + d.arch.arraySize.toNat) * d.arch.dataType.scalarBytes =
        (row.toNat + 1) * d.arch.rowBytes ∧
      (row.toNat + 1) * d.arch.rowBytes ≤ d.dram0.sizeBytes.toNat := by
  refine ⟨?_, hd.row_le h⟩
  rw [ha, ← Nat.succ_mul, Architecture.rowBytes, Nat.mul_assoc]

include hC hcall

theorem confined_writeRow {row : UInt64} (hlo : d.target.toNat ≤ row.toNat)
    (hhi : row.toNat < d.target.toNat + 2) {address : ScalarAddress}
    (ha : address.val.toNat = row.toNat * d.arch.arraySize.toNat) {v : Int}
    (hv : d.arch.dataType.Holds v) :
    Confined K C
      (d.dram0.write address (List.replicate d.arch.arraySize.toNat v) :
        Action σ DriverError Unit) := by
  have htarget := hd.sound.toNat_target
  have hdepth := hd.sound.depth
  obtain ⟨hrow, hfit⟩ := row_fits hd (show row.toNat < d.arch.dram0Depth.toNat by omega) ha
  have hstart : address.val.toNat * d.arch.dataType.scalarBytes = row.toNat * d.arch.rowBytes := by
    rw [ha, Architecture.rowBytes, Nat.mul_assoc]
  have hsized := hd.sized
  apply hsized.confined_write hC
  · refine ⟨fun x hx => ?_, ?_⟩
    · rw [List.eq_of_mem_replicate hx, hd.dataType_dram0]
      exact hv
    · rw [List.length_replicate, hd.within_iff, hrow]
      exact hfit
  · intro position chunk hp hend
    rw [hd.dataType_dram0, hstart] at hp
    rw [hd.dataType_dram0, List.length_replicate, hrow] at hend
    apply hcall
    intro p hmem
    rw [List.mem_singleton.mp hmem]
    refine .inl ⟨hd.name_dram0, _, List.mem_cons_self .., ?_, ?_⟩
    · exact Nat.le_trans (Nat.mul_le_mul_right _ hlo) hp
    · exact Nat.le_trans hend (Nat.mul_le_mul_right _ (by omega))

omit hcall in
theorem confined_compareRow {row : UInt64} (h : row.toNat < d.arch.dram0Depth.toNat)
    {address : ScalarAddress} (ha : address.val.toNat = row.toNat * d.arch.arraySize.toNat)
    (hr : Readable K K d.dram0.name) (v : Int) :
    Confined K C
      (d.dram0.compare address (List.replicate d.arch.arraySize.toNat v) :
        Action σ DriverError Bool) := by
  obtain ⟨hrow, hfit⟩ := row_fits hd h ha
  refine (hd.sized.confined_compare ?_ hr).mono hC.run
  rw [List.length_replicate, hd.within_iff, hrow]
  exact hfit

end Rows

section Probe

include hd hC hcall

theorem confined_arm : Confined (Probing.Beside d.Idle K) C
    (Probing.arm d.dram0 : Probing.Act σ Unit) := by
  have htarget := hd.sound.toNat_target
  have hsource := hd.sound.toNat_source
  have hdepth := hd.sound.depth
  refine Confined.view fun s hs => Confined.guard (fun hn => ?_) fun _ => ?_
  · exact absurd (by rw [hs.1.2]; decide) hn
  refine Confined.bind (Confined.update ?_) fun _ => Confined.view fun s hs => ?_
  · rintro s ⟨⟨⟨g, o, hp⟩, ho⟩, hk⟩
    refine ⟨⟨⟨g + 1, o, ?_⟩, ho⟩, hk⟩
    change s.probe.advance = _
    rw [hp]
    rfl
  have hp := hs.1.1
  obtain ⟨hsrc, htgt, _, hraw⟩ := hp.facts hd
  have hsource : s.probe.source.val.toNat < d.arch.dram0Depth.toNat := by
    rw [hsrc]
    omega
  have htarget : s.probe.target.val.toNat < d.arch.dram0Depth.toNat := by
    rw [htgt]
    omega
  obtain ⟨first, hfirst, hf⟩ := hp.exists_scalar hd hsource
  obtain ⟨second, hsecond, hs'⟩ := hp.exists_scalar hd htarget
  refine confined_spec (hp.row hd _) (confined_spec (hp.row hd 0) (confined_spec hfirst ?_))
  refine Confined.bind (Probing.confined_onRemote ?_) fun _ => confined_spec hsecond
    (Probing.confined_onRemote ?_)
  · exact confined_writeRow hd hC hcall (by rw [hsrc]; omega) (by rw [hsrc]; omega) hf
      (Probe.holds_stamp hraw)
  · exact confined_writeRow hd hC hcall (Nat.le_of_eq (congrArg _ htgt.symm))
      (by rw [htgt]; omega) hs' (DataType.holds_zero _)

theorem confined_isObserved : Confined (Probing.Beside d.Probes K) C
    (Probing.isObserved d.dram0 : Probing.Act σ Bool) := by
  have htarget := hd.sound.toNat_target
  have hdepth := hd.sound.depth
  refine Confined.view fun s hs => ?_
  obtain ⟨_, htgt, _, _⟩ := hs.1.facts hd
  have hrow : s.probe.target.val.toNat < d.arch.dram0Depth.toNat := by
    rw [htgt]
    omega
  obtain ⟨address, ha, hn⟩ := hs.1.exists_scalar hd hrow
  refine confined_spec (hs.1.row hd _) (confined_spec ha (Probing.confined_onRemote ?_))
  exact confined_compareRow hd hC hrow hn (readable_dram0 hcall _) _

theorem outcome_poll (polls more : Nat) : Outcome (Probing.Beside d.Probes K)
    (Probing.poll d.dram0 polls more : Probing.Act σ Nat) (fun _ => Probing.Beside d.Idle K)
    fun e s => C e ∧ Probing.Beside d.Probes K s := by
  induction more generalizing polls with
  | zero => exact ⟨Triple.fail fun _ _ => trivial, Raises.fail fun _ hs => ⟨hC.run _ trivial, hs⟩⟩
  | succ more ih =>
    refine Outcome.bind (confined_isObserved hd hC hcall) fun seen => ?_
    cases seen with
    | false => exact ih _
    | true =>
      refine Outcome.bind (Q := fun _ => Probing.Beside d.Idle K) ⟨Triple.update ?_, Raises.update⟩
        fun _ => ⟨Triple.pure fun _ h => h, Raises.pure⟩
      rintro s ⟨⟨g, o, hp⟩, hk⟩
      refine ⟨⟨⟨g, false, ?_⟩, rfl⟩, hk⟩
      change { s.probe with outstanding := false } = _
      rw [hp]

theorem outcome_wait (policy : FlushPolicy) : Outcome (Probing.Beside d.Probes K)
    (Probing.wait d.dram0 policy : Probing.Act σ Nat) (fun _ => Probing.Beside d.Idle K)
    fun e s => C e ∧ Probing.Beside d.Probes K s := by
  refine Outcome.bind (Q := fun _ => Probing.Beside d.Probes K) ⟨Triple.update ?_, Raises.update⟩
    fun _ => ⟨Triple.viewed fun _ => (outcome_poll hd hC hcall _ _).success,
      Raises.view fun _ _ => (outcome_poll hd hC hcall _ _).failure⟩
  rintro s ⟨⟨g, o, hp⟩, hk⟩
  refine ⟨⟨g, true, ?_⟩, hk⟩
  change { s.probe with outstanding := true } = _
  rw [hp]

theorem outcome_settle (policy : FlushPolicy) : Outcome (Probing.Beside d.Probes K)
    (Probing.settle d.dram0 policy : Probing.Act σ (Option Nat))
    (fun _ => Probing.Beside d.Idle K) fun e s => C e ∧ Probing.Beside d.Probes K s := by
  refine Outcome.bind (Q := fun (p : Probe) s => p = s.probe ∧ Probing.Beside d.Probes K s)
    ⟨Triple.view fun _ h => ⟨rfl, h⟩, fun _ _ _ _ h => nomatch h⟩ fun p => ?_
  cases ho : p.outstanding with
  | true =>
    exact Outcome.bind ((outcome_wait hd hC hcall policy).weaken (fun _ h => h.2)
      (fun _ _ h => h) fun _ _ h => h) fun _ => ⟨Triple.pure fun _ h => h, Raises.pure⟩
  | false =>
    exact ⟨Triple.pure fun s hs => ⟨⟨hs.2.1, hs.1 ▸ ho⟩, hs.2.2⟩, Raises.pure⟩

end Probe

end Run

namespace Driving

def Beside {σ : Type} (d : Driver) (B : Probe → Prop) (K : σ → Prop) (h : Driving σ) : Prop :=
  (∃ p, B p ∧ h.driver = { d with probe := p }) ∧ K h.remote

section Steps

variable {σ α : Type} {d : Driver} {B B' : Probe → Prop} {K : σ → Prop} {C : DriverError → Prop}

theorem confined_onRemote {a : Action σ DriverError α} (h : Confined K C a) :
    Confined (Beside d B K) C (onRemote a) := by
  rw [Action.confined_iff] at h ⊢
  intro s hs
  rw [onRemote_run]
  exact ⟨(h s.remote hs.2).1, hs.1, (h s.remote hs.2).2⟩

theorem outcome_onProbe {a : Probing.Act σ α}
    (h : Outcome (Probing.Beside B K) a (fun _ => Probing.Beside B' K)
      fun e s => C e ∧ Probing.Beside B K s) :
    Outcome (Beside d B K) (onProbe a) (fun _ => Beside d B' K)
      fun e s => C e ∧ Beside d B K s := by
  have hback : ∀ {s : Driving σ} {B B' : Probe → Prop} {t : Probing σ}, Beside d B K s →
      Probing.Beside B' K t → Beside d B' K ⟨{ s.driver with probe := t.probe }, t.remote⟩ := by
    rintro s B B' t ⟨⟨p, _, hp⟩, _⟩ ht
    exact ⟨⟨t.probe, ht.1, by rw [hp]⟩, ht.2⟩
  have hstart : ∀ s : Driving σ, Beside d B K s →
      Probing.Beside B K ⟨s.driver.probe, s.remote⟩ := by
    rintro s ⟨⟨p, hb, hp⟩, hk⟩
    exact ⟨by rw [hp]; exact hb, hk⟩
  constructor
  · refine Triple.of_run (fun s x t hs hr => ?_) fun _ _ _ _ _ => trivial
    rw [onProbe_run] at hr
    cases ha : a.run ⟨s.driver.probe, s.remote⟩ with
    | mk r u =>
      rw [ha] at hr
      cases hr
      exact hback hs (h.success.ok (hstart s hs) ha)
  · intro s e t hs hr
    rw [onProbe_run] at hr
    cases ha : a.run ⟨s.driver.probe, s.remote⟩ with
    | mk r u =>
      rw [ha] at hr
      cases hr
      obtain ⟨hC, hu⟩ := h.failure _ e u (hstart s hs) ha
      exact ⟨hC, hback hs hu⟩

theorem confined_driver {f : Driver → Act σ α}
    (h : ∀ p, B p → Confined (Beside d B K) C (f { d with probe := p })) :
    Confined (Beside d B K) C (getDriver >>= f) := by
  refine Confined.view fun s hs => ?_
  obtain ⟨⟨p, hb, hp⟩, _⟩ := hs
  rw [hp]
  exact h p hb

theorem confined_open (hopen : d.closed = false) {f : Unit → Act σ α}
    (h : Confined (Beside d B K) C (f ())) : Confined (Beside d B K) C (ensureOpen >>= f) := by
  rw [ensureOpen, bind_assoc]
  refine confined_driver fun p _ => ?_
  rw [Action.require, if_pos (by simp [hopen])]
  exact h

theorem confined_assemble {program : List Tcu.Instruction} {stream : List UInt8}
    (hs : Tcu.assemble d.layout program = .ok stream) {f : List UInt8 → Act σ α}
    (h : Confined (Beside d B K) C (f stream)) :
    Confined (Beside d B K) C (assemble program >>= f) := by
  rw [assemble, bind_assoc]
  refine confined_driver fun p _ => Confined.checked (x := stream) ?_ h
  rw [hs]
  rfl

end Steps

section Run

variable {σ : Type} [Service σ] {K : σ → Prop} {C : DriverError → Prop} {d : Driver}
  {limit : Nat} {loaded : LoadedModel}
variable (hd : d.WellMade limit) (hopen : d.closed = false)
variable (hC : Allows C K limit)
variable (hcall : ∀ batch : Batch, (∀ p ∈ batch, d.Covers loaded p) →
  Keeps K (execute batch : Action σ RemoteError (List Response)))
include hC hcall

theorem confined_batch {B : Probe → Prop} {batch : Batch}
    (h : ∀ p ∈ batch, d.Covers loaded p) :
    Confined (Beside d B K) C (call batch) :=
  (confined_onRemote (confined_call (hcall batch h))).mono hC.run

include hd hopen

theorem confined_dmaWrite {stream : List UInt8} (hlen : stream.length = d.stagedBytes loaded) :
    Confined (Beside d d.Probes K) C (dmaWrite stream) := by
  refine confined_open hopen ?_
  split
  · exact Confined.pure
  refine confined_driver fun p _ => Confined.bind (confined_batch hC hcall ?_) fun _ => ?_
  · intro q hq
    rw [List.mem_singleton.mp hq]
    exact ⟨rfl, congrArg _ hlen⟩
  have hsend : Confined (Beside d d.Probes K) C (sendStaged stream) := by
    refine confined_driver fun p _ => Confined.bind (confined_onRemote ?_) fun _ => ?_
    · refine confined_writeChunked hC hd.chunk hd.payload fun n chunk hn => hcall _ fun q hq => ?_
      rw [List.mem_singleton.mp hq]
      refine .inr ⟨rfl, Nat.le_trans (Nat.add_le_add_right ?_ _) (hlen ▸ hn)⟩
      rw [UInt64.zero_add, UInt64.toNat_ofNat']
      exact Nat.mod_le ..
    · exact Confined.bind (confined_batch hC hcall (by simp [Driver.Covers])) fun _ => Confined.pure
  refine hsend.attempt fun sent hsent => ?_
  refine Confined.attempt (confined_batch hC hcall (by simp [Driver.Covers])) fun released hr => ?_
  exact Confined.bind (Confined.ofExcept hsent) fun _ => Confined.bind (Confined.ofExcept hr)
    fun _ => Confined.pure

theorem confined_executeStream
    (hwhole : loaded.program.length % d.layout.instructionBytes = 0) :
    Confined (Beside d d.Probes K) C (executeStream loaded.program) := by
  refine confined_open hopen (confined_driver fun p hp => ?_)
  refine Confined.guard (fun hn => absurd hwhole hn) fun _ => ?_
  refine Outcome.bind (outcome_onProbe (outcome_settle hd hC hcall _)) fun _ => ?_
  have hidle : ∀ s : Driving σ, Beside d d.Idle K s → Beside d d.Probes K s :=
    fun s ⟨⟨p, hb, hp⟩, hk⟩ => ⟨⟨p, hb.1, hp⟩, hk⟩
  refine Outcome.bind ((outcome_onProbe (confined_arm hd hC hcall)).weaken (fun _ h => h)
    (fun _ s hs => hidle s hs) fun _ s hs => ⟨hs.1, hidle s hs.2⟩) fun _ => ?_
  obtain ⟨probe, hprobe⟩ := hd.probe
  have hsame : ({ d with probe := p } : Driver).probe.instructions = d.probe.instructions := by
    obtain ⟨_, _, rfl⟩ := hp
    rfl
  rw [hsame]
  refine confined_assemble hprobe (Confined.bind (confined_dmaWrite hd hopen hC hcall ?_)
    fun _ => ?_)
  · rw [List.length_append, (Tcu.decode_assemble hd.sound.whole hprobe).1]
    rfl
  · exact (outcome_onProbe (outcome_wait hd hC hcall _)).weaken (fun _ h => h)
      (fun _ s hs => hidle s hs) fun _ _ h => h

theorem confined_writeInput {region : Placement} (hr : region ∈ loaded.model.inputs)
    (hend : region.base.toNat + region.size.toNat ≤ d.target.toNat) {address : ScalarAddress}
    (ha : address.val.toNat = region.base.toNat * d.arch.arraySize.toNat) {values : List Double}
    (hv : values.length ≤ region.size.toNat * d.arch.arraySize.toNat) :
    Confined (Beside d d.Probes K) C
      (write .dram0 address (values.map d.arch.dataType.toFixed) : Act σ Unit) := by
  refine confined_open hopen (confined_driver fun p _ => confined_onRemote ?_)
  have htarget := hd.sound.toNat_target
  have hstart : address.val.toNat * d.arch.dataType.scalarBytes =
      region.base.toNat * d.arch.rowBytes := by
    rw [ha, Architecture.rowBytes, Nat.mul_assoc]
  have hstop : (address.val.toNat + values.length) * d.arch.dataType.scalarBytes ≤
      (region.base.toNat + region.size.toNat) * d.arch.rowBytes := by
    rw [Architecture.rowBytes, ← Nat.mul_assoc]
    refine Nat.mul_le_mul_right _ ?_
    rw [Nat.add_mul, ha]
    exact Nat.add_le_add_left hv _
  have hend : region.base.toNat + region.size.toNat ≤ d.arch.dram0Depth.toNat := by omega
  have hrow := hd.row_le hend
  change Confined K _ (d.dram0.write address _)
  have hsized := hd.sized
  apply hsized.confined_write hC
  · refine ⟨fun v hmem => ?_, ?_⟩
    · obtain ⟨x, _, rfl⟩ := List.mem_map.mp hmem
      rw [hd.dataType_dram0]
      exact DataType.holds_toFixed ..
    · rw [List.length_map, hd.within_iff]
      exact Nat.le_trans hstop hrow
  · intro position chunk hp hq
    rw [hd.dataType_dram0, hstart] at hp
    rw [hd.dataType_dram0, List.length_map] at hq
    apply hcall
    intro q hmem
    rw [List.mem_singleton.mp hmem]
    exact .inl ⟨hd.name_dram0, _, List.mem_cons_of_mem _ (List.mem_map_of_mem hr), hp,
      Nat.le_trans hq hstop⟩

section Regions

variable (hl : d.loaded = some loaded)
include hl

theorem confined_writeInputs (inputs : Tensors) {regions : List Placement}
    (hr : ∀ region ∈ regions, region ∈ loaded.model.inputs) :
    Confined (Beside d d.Probes K) C (writeInputs inputs regions : Act σ Unit) := by
  have htarget := hd.sound.toNat_target
  induction regions with
  | nil => exact Confined.pure
  | cons region rest ih =>
    have hregion := hr region (List.mem_cons_self ..)
    have hend := hd.placed.le_target hd.sound hl (List.mem_append_left _ hregion)
    have hsize : region.size.toNat ≤ d.arch.dram0Depth.toNat := by omega
    have hbase : region.base.toNat ≤ d.arch.dram0Depth.toNat := by omega
    obtain ⟨capacity, hcapacity, hc⟩ := hd.exists_scalar hsize
    obtain ⟨address, haddress, ha⟩ := hd.exists_scalar hbase
    refine confined_driver fun p _ => ?_
    dsimp only
    split
    · exact Confined.fail (hC.run _ trivial)
    · rename_i values _
      refine confined_spec hcapacity (Confined.guard (fun _ => hC.run _ trivial) fun hv => ?_)
      refine confined_spec haddress (Confined.bind ?_ fun _ =>
        ih fun region hm => hr region (List.mem_cons_of_mem _ hm))
      exact confined_writeInput hd hopen hC hcall hregion hend ha (hc ▸ hv)

theorem confined_readOutputs {done : Tensors} {regions : List Placement}
    (hr : ∀ region ∈ regions, region ∈ loaded.model.outputs) :
    Confined (Beside d d.Probes K) C
      (readOutputs done regions : Act σ Tensors) := by
  have htarget := hd.sound.toNat_target
  induction regions generalizing done with
  | nil => exact Confined.pure
  | cons region rest ih =>
    have hend := hd.placed.le_target hd.sound hl
      (List.mem_append_right _ (hr region (List.mem_cons_self ..)))
    have hstop : region.base.toNat + region.size.toNat ≤ d.arch.dram0Depth.toNat := by omega
    have hsize : region.size.toNat ≤ d.arch.dram0Depth.toNat := by omega
    have hbase : region.base.toNat ≤ d.arch.dram0Depth.toNat := by omega
    obtain ⟨address, haddress, ha⟩ := hd.exists_scalar hbase
    obtain ⟨length, hlength, hn⟩ := hd.exists_scalar hsize
    have hrow := hd.row_le hstop
    refine confined_driver fun p _ => confined_spec haddress (confined_spec hlength ?_)
    refine Confined.bind (confined_open hopen (confined_driver fun p _ => confined_onRemote ?_))
      fun _ => ih fun region hm => hr region (List.mem_cons_of_mem _ hm)
    refine (hd.sized.confined_read ?_ (readable_dram0 hcall _)).mono hC.run
    rw [hd.within_iff, ha, hn, ← Nat.add_mul, Nat.mul_assoc]
    exact hrow

/-- A run of a model fails with an input or with a call, and writes where it may. -/
theorem confined_run (inputs : Tensors) :
    Confined (Beside d d.Probes K) C (run inputs : Act σ RunOutput) := by
  refine confined_open hopen (confined_driver fun p _ => ?_)
  dsimp only
  rw [hl]
  refine Confined.bind (confined_writeInputs hd hopen hC hcall hl inputs fun _ h => h) fun _ => ?_
  refine Confined.bind (confined_executeStream hd hopen hC hcall (hd.takes loaded hl).whole)
    fun _ => ?_
  exact Confined.bind (confined_readOutputs hd hopen hC hcall hl fun _ h => h) fun _ =>
    Confined.pure

end Regions

end Run

end Driving

end TensorUnit.Host
