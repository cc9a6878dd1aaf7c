import TensorUnit.Proofs.Host.Upkeep

namespace TensorUnit.Host

open TensorUnit.Action (Triple Keeps KeepsOr Raises)
open Remote Sim

/-- The states that a driver gets into while every call of its operations reaches the instance. -/
inductive Unhindered (A : Driving (Switch Simulator) → Operation → Prop) :
    Driving (Switch Simulator) → Prop where
  | start {h : Driving (Switch Simulator)} (fresh : Reached (fun _ _ => False) h)
      (direct : h.remote.plan.calls = []) : Unhindered A h
  | perform {h : Driving (Switch Simulator)} {op : Operation} (reached : Unhindered A h)
      (allowed : A h op) : Unhindered A (h.after op)
  | tune {h : Driving (Switch Simulator)} (stall : Bool)
      (instructionsPerCall failBufferWriteAt : Option Nat) (reached : Unhindered A h) :
      Unhindered A (h.tune stall instructionsPerCall failBufferWriteAt)

theorem Unhindered.reached {A : Driving (Switch Simulator) → Operation → Prop}
    {h : Driving (Switch Simulator)} (hu : Unhindered A h) : Reached (fun _ _ => True) h := by
  induction hu with
  | start fresh _ => exact fresh.mono fun _ _ _ => trivial
  | perform _ _ ih => exact .perform ih trivial
  | tune _ _ _ _ ih => exact .tune _ _ _ ih

theorem Reached.fresh {h : Driving (Switch Simulator)} (hr : Reached (fun _ _ => False) h) :
    h.Standing fun d m => d.probe.outstanding = false ∧ d.banks.Ready m ∧
      d.Unless false (fun m => m.device.queue = []) m := by
  induction hr with
  | new sim_ok fails new_ok =>
    obtain ⟨hd, _, ho, _, hl, hon⟩ := triple_new.ok ⟨fails, blank_ofArchitecture sim_ok⟩ new_ok
    refine ⟨hd, fun loaded he => ?_, hon.mono fun m hm => ⟨ho, hm⟩⟩
    rw [hl] at he
    cases he
  | perform _ allowed => exact allowed.elim
  | tune _ _ _ _ ih => exact ih.tune ..
  | replan fails clock _ ih => exact ih.replan fails clock

/-- The unit faults while the staging buffer is allocated: that call is the last one, and the
operation fails with the fault. -/
def Driving.FaultsAtAlloc (h : Driving (Switch Simulator)) (op : Operation) : Prop :=
  (∃ fault, ((perform op).run h).1 = .error (.remote (.device fault))) ∧
    ∃ size, (h.after op).remote.log.head? =
      some [.bufferAlloc h.driver.config.stagingBuffer size]

section Calls

variable {layout : Tcu.Layout} {J : Machine → Prop} {batch : Batch}

theorem execute_run_direct {w : Switch Simulator} (h : w.plan.calls = []) (batch : Batch) :
    (execute batch : Action (Switch Simulator) RemoteError _).run w =
      (((Simulator.execute batch).run w.remote).1,
        { w with
          remote := ((Simulator.execute batch).run w.remote).2
          call := w.call + 1
          log := batch :: w.log }) :=
  On.send_run_none (h ▸ List.lookup_nil)

theorem triple_direct {Q F : Simulator → Prop} {R : List Response → Simulator → Prop}
    (h : Triple Q (Simulator.execute batch) R F) :
    Triple (fun w : Switch Simulator => Q w.remote ∧ w.plan.calls = []) (execute batch)
      (fun rs w => R rs w.remote ∧ w.plan.calls = []) fun w => F w.remote ∧ w.plan.calls = [] := by
  intro w hw
  have hs := h w.remote hw.1
  rw [execute_run_direct hw.2]
  cases hr : (Simulator.execute batch).run w.remote with
  | mk r remote =>
    rw [hr] at hs
    cases r with
    | ok rs => exact ⟨hs, hw.2⟩
    | error e => exact ⟨hs, hw.2⟩

def Direct (layout : Tcu.Layout) (J : Machine → Prop) (w : Switch Simulator) : Prop :=
  Simulator.At layout J w.remote ∧ w.plan.calls = []

theorem Direct.on {w : Switch Simulator} (h : Direct layout J w) : Sim.On layout J w := by
  refine ⟨fun c hc => ?_, h.1⟩
  rw [h.2] at hc
  cases hc

theorem keeps_direct (h : Keeps (Sim.On layout J)
    (execute batch : Action (Switch Simulator) RemoteError _)) :
    Keeps (Direct layout J) (execute batch : Action (Switch Simulator) RemoteError _) :=
  ((triple_direct (Q := fun _ => True) Triple.top).and h).weaken
    (fun _ hw => ⟨⟨trivial, hw.2⟩, hw.on⟩)
    (fun _ _ hw => ⟨hw.2.remote, hw.1.2⟩) fun _ hw => ⟨hw.2.remote, hw.1.2⟩

variable {d : Driver} {present : Bool}

def Driver.Buffers (d : Driver) (present : Bool) (m : Machine) : Prop :=
  d.banks.Hold m ∧ (m.memory.region? d.config.stagingBuffer).isSome = present

theorem keeps_buffers : Keeps (d.Buffers present) Machine.executeNext :=
  (Triple.and Banks.keeps_hold Banks.keeps_isSome).weaken (fun _ h => h) (fun _ _ h => h)
    fun _ h => h

theorem Driver.Buffers.write {m : Machine} (h : d.Buffers present m) (name : String)
    (offset : UInt64) (data : List UInt8) :
    d.Buffers present { m with memory := m.memory.write name offset data } :=
  ⟨h.1.write .., (Memory.region?_isSome_congr (Memory.extents_write ..) _).trans h.2⟩

theorem writable_buffers {name : String} :
    Writable (Direct layout (d.Buffers present)) (Direct layout (d.Buffers present)) name :=
  fun position chunk => keeps_direct (writable_on keeps_buffers (fun _ _ _ h => h.write ..)
    position chunk)

theorem readable_buffers {name : String} :
    Readable (Direct layout (d.Buffers present)) (Direct layout (d.Buffers present)) name :=
  fun position length => keeps_direct (readable_on keeps_buffers position length)

def Staging (d : Driver) (w : Switch Simulator) : Prop :=
  Direct d.layout (d.Buffers true) w ∧ w.remote.up = true

theorem keeps_staging (h : Keeps (Direct d.layout (d.Buffers true))
      (execute batch : Action (Switch Simulator) RemoteError _)) :
    Keeps (Staging d) (execute batch : Action (Switch Simulator) RemoteError _) :=
  (h.and (triple_direct (Simulator.keeps_up_execute batch))).weaken
    (fun _ hw => ⟨hw.1, hw.2, hw.1.2⟩) (fun _ _ hw => ⟨hw.1, hw.2.1⟩) fun _ hw => ⟨hw.1, hw.2.1⟩

def AllocFault (d : Driver) (e : RemoteError) (w : Switch Simulator) : Prop :=
  (∃ fault, e = .device fault) ∧
    ∃ size, w.log.head? = some [.bufferAlloc d.config.stagingBuffer size]

variable (hd : d.Sound) {size : UInt64}
include hd

theorem triple_allocStaging : Triple (Direct d.layout (d.Buffers false))
    (execute [.bufferAlloc d.config.stagingBuffer size] : Action (Switch Simulator) RemoteError _)
    (fun _ => Staging d) fun _ => True := by
  have hon : Triple (Sim.On d.layout (d.Buffers false))
      (execute [.bufferAlloc d.config.stagingBuffer size] :
        Action (Switch Simulator) RemoteError _)
      (fun _ => Sim.On d.layout (d.Buffers true)) (Sim.On d.layout fun _ => True) := by
    refine Triple.relax (On.triple_send (Simulator.triple_alloc (R := fun _ => d.Buffers true)
      (fun _ _ => trivial) ?_ fun _ => ?_) fun _ _ => trivial) fun _ w hw =>
        hw.mono fun _ h => h.choose_spec.2
    · intro m address memory h ha
      refine ⟨h.1.beside hd.staging (h.1.apart.alloc ha).1 (Memory.beside_alloc ha), ?_⟩
      rw [Memory.region?_alloc ha, if_pos rfl]
      rfl
    · exact keeps_buffers.weaken (fun _ h => h) (fun _ _ h => h) fun _ _ => trivial
  exact (hon.and (triple_direct (Simulator.triple_up_execute (S := fun _ => True) _))).weaken
    (fun _ hw => ⟨hw.on, trivial, hw.2⟩) (fun _ _ hw => ⟨⟨hw.1.remote, hw.2.2⟩, hw.2.1⟩)
    fun _ _ => trivial

theorem raises_allocStaging : Action.Raises (Direct d.layout (d.Buffers false))
    (fun e w => Direct d.layout (d.Buffers false) w ∨ AllocFault d e w)
    (execute [.bufferAlloc d.config.stagingBuffer size] :
      Action (Switch Simulator) RemoteError _) := by
  intro w e t hw hr
  have hold := (Driving.keeps_hold_alloc hd).error (hw.on.mono fun _ h => h.1) hr
  rw [execute_run_direct hw.2] at hr
  cases hs : (Simulator.execute [.bufferAlloc d.config.stagingBuffer size]).run w.remote with
  | mk r remote =>
    rw [hs] at hr
    cases hr
    have hnone : w.remote.memory.region? d.config.stagingBuffer = none :=
      Option.not_isSome_iff_eq_none.mp (Bool.not_eq_true _ ▸ hw.1.machine.2)
    rcases Simulator.raises_alloc _ _ _ hnone hs with hn | hf
    · refine .inl ⟨⟨hold.remote.layout, hold.remote.machine, ?_⟩, hw.2⟩
      change (remote.memory.region? _).isSome = false
      rw [hn.1]
      rfl
    · exact .inr ⟨hf, size, rfl⟩

theorem triple_releaseStaging : Triple (Staging d)
    (execute [.bufferDealloc d.config.stagingBuffer] : Action (Switch Simulator) RemoteError _)
    (fun _ => Direct d.layout (d.Buffers false)) (Direct d.layout (d.Buffers false)) := by
  refine (triple_direct (Simulator.triple_release (P := d.Buffers true)
    (Q := d.Buffers false) (fun _ h => h.2) (fun m memory h ha => ?_) keeps_buffers)).strengthen
    fun w hw => ⟨⟨hw.1.1, hw.2⟩, hw.1.2⟩
  refine ⟨h.1.beside hd.staging (h.1.apart.dealloc ha) (Memory.beside_dealloc ha), ?_⟩
  rw [Memory.region?_dealloc ha, if_pos rfl]
  rfl

end Calls

namespace Driving

section Submit

variable {d : Driver}

theorem raises_call {σ : Type} [Service σ] {P : σ → Prop} {E : RemoteError → σ → Prop}
    {batch : Batch} (h : Raises P E (execute batch : Action σ RemoteError _)) :
    Raises (Over d P) (fun e t => ∃ e', e = .remote e' ∧ Over d (E e') t)
      (call batch : Act σ (List Response)) := by
  intro s e t hs hr
  rw [call, onRemote_run, Action.mapError_run] at hr
  cases ha : (execute batch : Action σ RemoteError _).run s.remote with
  | mk r remote =>
    rw [ha] at hr
    cases r with
    | ok _ => cases hr
    | error e' =>
      cases hr
      exact ⟨e', rfl, hs.1, h _ _ _ hs.2 ha⟩

/-- A submission ends without the staging buffer, unless the unit faults while it is allocated. -/
theorem keepsOr_dmaWrite_released (hd : d.Sound) {stream : List UInt8} :
    KeepsOr (Over d (Direct d.layout (d.Buffers false)))
      (fun e h => ∃ e', e = .remote e' ∧ AllocFault d e' h.remote) (dmaWrite stream) := by
  have hI : ∀ h, Over d (Direct d.layout (d.Buffers false)) h → _ := fun _ h => h.1
  refine KeepsOr.bind keepsOr_ensureOpen fun _ => ?_
  split
  · exact Keeps.pure.or
  · refine keepsOr_getDriver hI fun generation outstanding => ?_
    have hsent : Keeps (Over d (Staging d)) (sendStaged stream) := by
      refine keeps_sendStaged
        (Writable.storable (fun _ h => h) fun _ _ => keeps_staging (writable_buffers _ _))
        (keeps_staging (keeps_direct ?_))
      exact On.triple_send (R := fun _ => d.Buffers true) (Simulator.triple_send (fun _ h => h)
        (fun m queued h _ _ => ⟨⟨h.1.arch, h.1.cells, h.1.apart, h.1.extents⟩, h.2⟩)
        keeps_buffers) fun _ h => h
    have hrelease : Triple (Over d (Staging d)) (call [.bufferDealloc d.config.stagingBuffer])
        (fun _ => Over d (Direct d.layout (d.Buffers false)))
        (Over d (Direct d.layout (d.Buffers false))) :=
      triple_remoteOver (Triple.mapError (triple_releaseStaging hd))
    refine KeepsOr.of_detour (Q := fun _ => Over d (Staging d))
      (triple_remoteOver (Triple.mapError (triple_allocStaging hd))) ?_ fun _ => ?_
    · intro s e t hs hr
      obtain ⟨e', he, hover, hcase⟩ := raises_call (raises_allocStaging hd) s e t hs hr
      exact hcase.imp (⟨hover, ·⟩) (⟨e', he, ·⟩)
    · apply Triple.bind (Triple.tried hsent)
      intro sent
      apply Triple.bind (Triple.tried hrelease)
      intro released
      exact Keeps.bind Keeps.ofExcept fun _ => Keeps.bind Keeps.ofExcept fun _ => Keeps.pure

theorem keepsOr_released_simple (hd : d.Sound) {op : Operation} (hs : op.Simple) :
    KeepsOr (Over d (Direct d.layout (d.Buffers false)))
      (fun e h => ∃ e', e = .remote e' ∧ AllocFault d e' h.remote) (perform op) :=
  keepsOr_simple (fun _ => writable_buffers.storable fun _ h => h)
    (fun _ => readable_buffers.loadable fun _ h => h) hs
    (fun _ _ => keepsOr_dmaWrite_released hd) fun _ _ _ _ _ => keepsOr_dmaWrite_released hd

end Submit

/-- No staging buffer is left, and nothing will get in the way of a call. -/
structure Released (h : Driving (Switch Simulator)) : Prop where
  unstaged : h.machine.memory.region? h.driver.config.stagingBuffer = none
  direct : h.remote.plan.calls = []

variable {h : Driving (Switch Simulator)}

theorem Released.of_direct {d : Driver} {J : Machine → Prop} (hr : Direct d.layout J h.remote)
    (hstaging : h.driver.config.stagingBuffer = d.config.stagingBuffer)
    (hJ : ∀ m, J m → (m.memory.region? d.config.stagingBuffer).isSome = false) : h.Released := by
  refine ⟨?_, hr.2⟩
  rw [hstaging]
  exact Option.not_isSome_iff_eq_none.mp (Bool.not_eq_true _ ▸ hJ _ hr.1.machine)

theorem Released.isSome (hr : h.Released) :
    (h.machine.memory.region? h.driver.config.stagingBuffer).isSome = false := by
  rw [hr.unstaged]
  rfl

theorem Released.after_close (hr : h.Released) (hh : h.Held) : (h.after .close).Released := by
  let J : Machine → Prop := fun m => (m.memory.region? h.driver.config.stagingBuffer).isSome = false
  have hdown : Keeps (Direct h.driver.layout J)
      (down : Action (Switch Simulator) RemoteError Unit) := by
    have hplan : Keeps (fun w : Switch Simulator => w.plan.calls = [])
        (down : Action (Switch Simulator) RemoteError Unit) := by
      change Keeps _ (Switch.refusable FaultPlan.down down)
      refine Keeps.bind Keeps.view fun (refusal : Option RemoteError) => ?_
      cases refusal with
      | some error => exact Keeps.fail
      | none => exact fun _ hw => hw
    have hon : Keeps (Sim.On h.driver.layout J)
        (down : Action (Switch Simulator) RemoteError Unit) := On.triple_down fun _ _ => rfl
    exact (Triple.and hon hplan).weaken (fun _ hw => ⟨hw.on, hw.2⟩)
      (fun _ _ hw => ⟨hw.1.remote, hw.2⟩) fun _ hw => ⟨hw.1.remote, hw.2⟩
  have hreleases : ∀ p ∈ releases h.driver.config, Keeps (Sim.On h.driver.layout J)
      (execute [p] : Action (Switch Simulator) RemoteError _) :=
    keeps_releases Banks.keeps_isSome hh.1 fun m memory name hm hn ha => by
      change (memory.region? _).isSome = false
      rwa [Memory.region?_dealloc ha, if_neg hn.symm]
  obtain ⟨⟨loaded, he⟩, hclosed⟩ := (triple_close hdown fun p hp =>
    keeps_direct (hreleases p hp)).state (s := h)
      ⟨rfl, ⟨hh.2.remote.remote.layout, hr.isSome⟩, hr.direct⟩
  exact .of_direct (d := h.driver) hclosed (congrArg (·.config.stagingBuffer) he) fun _ h => h

/-- An operation releases the staging buffer, unless the unit faults while it is allocated. -/
theorem Released.after (hr : h.Released) (hh : h.Held) {op : Operation} (hop : op ≠ .close) :
    (h.after op).Released ∨ h.FaultsAtAlloc op := by
  obtain ⟨hd, hon⟩ := hh
  have hover : Over h.driver (Direct h.driver.layout (h.driver.Buffers false)) h :=
    ⟨⟨h.driver.probe.generation, h.driver.probe.outstanding, rfl⟩,
      ⟨hon.remote.remote.layout, hon.remote.remote.machine, hr.isSome⟩, hr.direct⟩
  rcases after_of_simple (A := fun _ => True) (fun _ ho => ho.1) (fun _ _ _ _ => trivial)
    (fun _ hs _ => keepsOr_released_simple hd hs) trivial hop hover with
    (⟨⟨_, _, he⟩, hk⟩ | ⟨t, loaded, ⟨⟨_, _, ht⟩, hk⟩, he, _⟩) | ⟨_, he, e', rfl, ⟨fault, rfl⟩, hl⟩
  · exact .inl (.of_direct hk (congrArg (·.config.stagingBuffer) he) fun _ h => h.2)
  · refine .inl (.of_direct (d := h.driver) (J := h.driver.Buffers false) ?_ ?_ fun _ h => h.2)
    · rw [he]
      exact hk
    · rw [he]
      exact congrArg (·.config.stagingBuffer) ht
  · exact .inr ⟨⟨fault, he⟩, hl⟩

end Driving

theorem Unhindered.released {h : Driving (Switch Simulator)}
    (hu : Unhindered (fun h op => ¬ h.FaultsAtAlloc op) h) : h.Released := by
  induction hu with
  | start fresh direct =>
    refine ⟨Option.not_isSome_iff_eq_none.mp (Bool.not_eq_true _ ▸ ?_), direct⟩
    exact fresh.fresh.on.remote.remote.machine.2.2.1
  | @perform h op reached allowed ih =>
    rcases reached.reached.held with hc | hh
    · rw [Driving.after_closed hc]
      exact ih
    · by_cases hop : op = .close
      · subst hop
        exact ih.after_close hh
      · exact (ih.after hh hop).resolve_right allowed
  | tune _ _ _ _ ih => exact ⟨ih.unstaged, ih.direct⟩

/-- As long as every call reaches the instance and the unit does not fault while a staging buffer is
allocated, every operation leaves the instance without a staging buffer, and the next one can
allocate it. -/
theorem staging_released {h : Driving (Switch Simulator)}
    (hu : Unhindered (fun h op => ¬ h.FaultsAtAlloc op) h) :
    h.machine.memory.region? h.driver.config.stagingBuffer = none ∧
      ∀ size, ((Driving.call [.bufferAlloc h.driver.config.stagingBuffer size]).run h).1 ≠
        .error (.remote (.bufferExists h.driver.config.stagingBuffer)) := by
  obtain ⟨hnone, hdirect⟩ := hu.released
  refine ⟨hnone, fun size he => ?_⟩
  rw [Driving.call, Driving.onRemote_run, Action.mapError_run, execute_run_direct hdirect] at he
  cases hr : (Simulator.execute [.bufferAlloc h.driver.config.stagingBuffer size]).run
      h.remote.remote with
  | mk r t =>
    rw [hr] at he
    cases r with
    | ok rs => cases he
    | error e =>
      cases he
      rcases Simulator.raises_alloc _ _ _ hnone hr with ⟨_, hne⟩ | ⟨_, hf⟩
      · exact hne rfl
      · cases hf

section Small

def unwritten (h : Driving (Switch Simulator)) : Driving (Switch Simulator) :=
  h.tune true none (some h.remote.remote.stats.bufferWrites)

theorem staging_released_unwritten :
    ∃ h : Driving (Switch Simulator),
      Unhindered (fun h op => ¬ h.FaultsAtAlloc op) h ∧
      h.remote.log.head? = some [.bufferDealloc h.driver.config.stagingBuffer] ∧
      h.machine.memory.region? h.driver.config.stagingBuffer = none ∧
        ∀ size, ((Driving.call [.bufferAlloc h.driver.config.stagingBuffer size]).run h).1 ≠
          .error (.remote (.bufferExists h.driver.config.stagingBuffer)) := by
  obtain ⟨start, hs⟩ := exists_smallStart
  have hfacts : ∀ h ∈ smallStart, (unwritten h).remote.plan.calls = [] ∧
      ((unwritten h).after (.writeInstructions [.noOp])).remote.log.head? =
        some [.bufferDealloc
          ((unwritten h).after (.writeInstructions [.noOp])).driver.config.stagingBuffer] := by
    decide +kernel
  obtain ⟨hdirect, hlog⟩ := hfacts start hs
  have hu : Unhindered (fun h op => ¬ h.FaultsAtAlloc op)
      ((unwritten start).after (.writeInstructions [.noOp])) := by
    refine .perform (.start (.tune _ _ _ (reached_smallStart hs)) hdirect) ?_
    rintro ⟨_, size, hf⟩
    rw [hlog] at hf
    cases hf
  exact ⟨_, hu, hlog, staging_released hu⟩

/-- The small unit with an instruction queued that it cannot execute. -/
def poisoned (h : Driving (Switch Simulator)) : Driving (Switch Simulator) :=
  ((h.tune true none none).after (.writeInstructions [.matMul false false ⟨0, 0⟩ ⟨0, 0⟩ 0])).tune
    false none none

/-- The fault of an instruction that was queued before leaves the staging buffer behind. -/
theorem staging_leaked :
    ∃ h : Driving (Switch Simulator), Unhindered (fun _ _ => True) h ∧
      (h.machine.memory.region? h.driver.config.stagingBuffer).isSome = true := by
  obtain ⟨start, hs⟩ := exists_smallStart
  have hfacts : ∀ h ∈ smallStart, (h.tune true none none).remote.plan.calls = [] ∧
      (((poisoned h).after (.writeInstructions [.noOp])).machine.memory.region?
        ((poisoned h).after (.writeInstructions [.noOp])).driver.config.stagingBuffer).isSome =
          true := by decide +kernel
  obtain ⟨hdirect, hsome⟩ := hfacts start hs
  refine ⟨_, .perform (.tune _ _ _ (.perform (.start (.tune _ _ _ (reached_smallStart hs)) hdirect)
    trivial)) trivial, hsome⟩

end Small

end TensorUnit.Host
