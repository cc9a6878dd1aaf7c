import TensorUnit.Host.Driver
import TensorUnit.Proofs.Host.Transfer

namespace TensorUnit.Host

open TensorUnit.Action (Triple Keeps)
open Remote Sim

def Driver.banks (d : Driver) : Banks where
  arch := d.arch
  name
    | .dram0 => d.config.dram0Buffer
    | .dram1 => d.config.dram1Buffer
  offset
    | .dram0 => d.offsets.dram0
    | .dram1 => d.offsets.dram1
  size := d.dram0.sizeBytes.toNat

/-- What holds of a driver from the time that it is made: the parts fit the architecture and one
another. -/
structure Driver.Sound (d : Driver) : Prop where
  fit : d.banks.Fit
  layout : d.layout = Tcu.Layout.ofDepths d.arch
  staging : ∀ k, d.banks.name k ≠ d.config.stagingBuffer
  mem : ∀ k, d.mem k =
    ⟨d.banks.name k, d.arch.dataType, d.arch.units, d.dram0.sizeBytes, d.config.chunkSize.toNat⟩
  depth : 2 ≤ d.arch.dram0Depth.toNat
  source : d.probe.source = ⟨d.arch.dram0Depth - 1⟩
  target : d.probe.target = ⟨d.arch.dram0Depth - 2⟩
  scratchpad : d.probe.scratchpad = ⟨d.arch.localDepth - 1⟩
  arraySize : d.probe.arraySize = d.arch.arraySize
  maxRaw : d.probe.maxRaw = d.arch.dataType.maxRaw

structure Driving.On (d : Driver) (P : Machine → Prop) (h : Driving (Switch Simulator)) : Prop where
  driver : h.driver = d
  remote : Sim.On d.layout P h.remote

namespace Driving

variable {d : Driver} {P Q E : Machine → Prop} {α : Type}

theorem On.mono {h : Driving (Switch Simulator)} (hp : On d P h) (hq : ∀ m, P m → Q m) : On d Q h :=
  ⟨hp.driver, hp.remote.mono hq⟩

theorem onRemote_run {σ : Type} (a : Action σ DriverError α) (h : Driving σ) :
    (onRemote a).run h = ((a.run h.remote).1, ⟨h.driver, (a.run h.remote).2⟩) := by
  cases h
  rfl

theorem triple_ensureOpen : Triple (On d P) (ensureOpen : Act (Switch Simulator) Unit)
    (fun _ => On d P) (On d P) := by
  apply Triple.bind (Q := fun _ => On d P) (Triple.view fun _ h => h)
  intro _
  exact Triple.require (fun _ _ h => h) fun _ _ h => h

theorem triple_getDriver {F : Driving (Switch Simulator) → Prop} :
    Triple (On d P) (getDriver : Act (Switch Simulator) Driver) (fun x h => x = d ∧ On d P h) F :=
  Triple.view fun _ h => ⟨h.driver, h⟩

section Submission

variable {σ : Type} [Service σ] {d : Driver} {stream : List UInt8}

def With (d : Driver) (P : σ → Prop) (h : Driving σ) : Prop :=
  h.driver = d ∧ P h.remote

omit [Service σ] in
theorem triple_with {a : Action σ DriverError α} {P E : σ → Prop} {R : α → σ → Prop}
    (h : Triple P a R E) :
    Triple (With d P) (onRemote a) (fun x => With d (R x)) (With d E) := by
  intro s hs
  have hr := h s.remote hs.2
  rw [onRemote_run]
  cases ha : a.run s.remote with
  | mk r remote =>
    rw [ha] at hr
    cases r with
    | ok x => exact ⟨hs.1, hr⟩
    | error e => exact ⟨hs.1, hr⟩

omit [Service σ] in
theorem triple_openWith {P E : σ → Prop} (hE : ∀ s, P s → E s) :
    Triple (With d P) (ensureOpen : Act σ Unit) (fun _ => With d P) (With d E) :=
  Triple.viewed fun _ => Triple.require (fun _ _ h => h) fun _ _ h => ⟨h.1, hE _ h.2⟩

omit [Service σ] in
theorem triple_accessWith {bank : Bank} {f : Mem → Action σ DriverError α} {P E : σ → Prop}
    {R : α → σ → Prop} (hE : ∀ s, P s → E s) (h : Triple P (f (d.mem bank)) R E) :
    Triple (With d P) (do
      ensureOpen
      let d ← getDriver
      onRemote (f (d.mem bank))) (fun x => With d (R x)) (With d E) := by
  refine (triple_openWith hE).bind fun _ => ?_
  refine Triple.bind (Q := fun x w => x = d ∧ With d P w) (Triple.view fun w hw => ⟨hw.1, hw⟩)
    fun x => Triple.assume fun hx => ?_
  subst hx
  exact triple_with h

/-- The calls of a submission: `I n` holds when the first `n` bytes of the stream are staged, `S`
when the stream is sent and `T` when its buffer is released too. A failure leaves `E` as long as the
buffer is there, and `F` in the end. -/
structure Submission (d : Driver) (stream : List UInt8) (A : σ → Prop) (I : Nat → σ → Prop)
    (S T E F : σ → Prop) : Prop where
  alloc : Triple A (execute [.bufferAlloc d.config.stagingBuffer (.ofNat stream.length)] :
    Action σ RemoteError _) (fun _ => I 0) F
  write : Writes d.config.stagingBuffer 0 stream d.config.chunkSize.toNat I E
  send : Triple (I stream.length) (execute [.dmaWrite d.config.dmaChannel d.config.stagingBuffer,
    .dmaWait d.config.dmaChannel d.config.dmaWaitTimeout] : Action σ RemoteError _) (fun _ => S) E
  release : Triple S (execute [.bufferDealloc d.config.stagingBuffer] : Action σ RemoteError _)
    (fun _ => T) F
  cleanup : Triple E (execute [.bufferDealloc d.config.stagingBuffer] : Action σ RemoteError _)
    (fun _ => F) F
  stop : ∀ s, I 0 s → E s
  fail : ∀ s, A s → F s

variable {A S T E F : σ → Prop} {I : Nat → σ → Prop}

theorem Submission.sendStaged (h : Submission d stream A I S T E F) :
    Triple (With d (I 0)) (sendStaged stream) (fun _ => With d S) (With d E) := by
  refine Triple.bind (Q := fun x w => x = d ∧ With d (I 0) w) (Triple.view fun w hw => ⟨hw.1, hw⟩)
    fun x => Triple.assume fun hx => ?_
  subst hx
  refine (triple_with (h.write.chunked h.stop)).bind fun _ => ?_
  exact (triple_with (Triple.mapError h.send)).bind fun _ => Triple.pure fun _ h => h

theorem Submission.dmaWrite (h : Submission d stream A I S T E F) (hne : stream ≠ []) :
    Triple (With d A) (dmaWrite stream) (fun _ => With d T) (With d F) := by
  refine (triple_openWith h.fail).bind fun _ => ?_
  rw [if_neg (by rwa [List.isEmpty_iff])]
  refine Triple.bind (Q := fun x w => x = d ∧ With d A w) (Triple.view fun w hw => ⟨hw.1, hw⟩)
    fun x => Triple.assume fun hx => ?_
  subst hx
  refine (triple_with (Triple.mapError h.alloc)).bind fun _ => ?_
  apply (Triple.attempt h.sendStaged).bind
  intro sent
  cases sent with
  | ok _ =>
    refine Triple.bind (Triple.attempt ((triple_with (Triple.mapError h.release)).strengthen
      fun s hs => hs.1 () rfl)) fun released => ?_
    refine Triple.bind (Q := fun _ s => (∀ rs, released = .ok rs → With x T s) ∧
      ∀ e, released = .error e → With x F s) (Triple.pure fun _ h => h) fun _ => ?_
    cases released with
    | ok rs =>
      refine Triple.bind (Q := fun _ => With x T) ?_ fun _ => Triple.pure fun _ hs => hs
      exact Triple.pure fun _ hs => hs.1 rs rfl
    | error e =>
      apply Triple.bind (Q := fun _ _ => False) (Triple.fail fun _ hs => hs.2 e rfl)
      exact fun _ _ hs => hs.elim
  | error e =>
    refine Triple.bind (Triple.tried ((triple_with (Triple.mapError h.cleanup)).strengthen
      fun s hs => hs.2 e rfl)) fun released => ?_
    exact Triple.bind (Q := fun _ _ => False) (Triple.fail fun _ hs => hs) fun _ _ h => h.elim

end Submission

/-- How a stream is submitted: `P` holds until it is queued and `S` from then on, whatever the unit
does meanwhile; `E` is what a failure leaves, and `F` what is left when the buffer cannot be
released either. -/
structure Submits (d : Driver) (stream : List UInt8) (P S E F : Machine → Prop) : Prop where
  apart : ∀ m, P m ∨ S m ∨ E m → m.memory.Apart
  beside : ∀ m memory, memory.Apart → Memory.Beside d.config.stagingBuffer m.memory memory →
    (P m → P { m with memory }) ∧ (S m → S { m with memory }) ∧ (E m → E { m with memory })
  send : ∀ m queued, P m → Simulator.instructions d.layout stream = .ok queued →
    S { m with device := m.device.enqueue queued }
  wait : ∀ bytes, Triple (fun m => P m ∧ m.memory.Has d.config.stagingBuffer bytes)
    Machine.executeNext (fun _ m => P m ∧ m.memory.Has d.config.stagingBuffer bytes) E
  work : Triple S Machine.executeNext (fun _ => S) E
  keep : Keeps E Machine.executeNext
  stop : ∀ m, P m → E m
  fail : ∀ m, E m → F m
  leak : ∀ m, S m → (m.memory.region? d.config.stagingBuffer).isSome → F m

section Submit

variable {stream : List UInt8} {S F : Machine → Prop}

def Staged (d : Driver) (stream : List UInt8) (n : Nat) (m : Machine) : Prop :=
  ∃ bytes, m.memory.Has d.config.stagingBuffer bytes ∧
    bytes.length = (UInt64.ofNat stream.length).toNat ∧ bytes.take n = stream.take n

theorem Submits.fills (h : Submits d stream P S E F) :
    Fills d.config.stagingBuffer 0 stream (fun n m => P m ∧ Staged d stream n m) E := by
  refine ⟨?_, fun n => ?_, fun _ m hm => h.stop m hm.1, ?_⟩
  · rintro n chunk position m ⟨hp, bytes, ⟨hs, hb⟩, hl, ht⟩ hn hchunk hpos _ hfit
    rw [Nat.zero_add] at hpos hfit
    have hapart := h.apart m (.inl hp)
    refine ⟨(h.beside m _ (hapart.write ..) (Memory.beside_write _ _ _ _)).1 hp, ?_⟩
    have hw := Memory.bytes_write (hpos.symm ▸ hfit) d.config.stagingBuffer
    rw [if_pos rfl, hb, hpos] at hw
    rw [hb] at hfit
    refine ⟨_, ⟨?_, hw⟩, ?_, ?_⟩
    · exact (Memory.region?_isSome_congr (Memory.extents_write ..) _).trans hs
    · rw [length_splice hfit, hl]
    · have hlen : (bytes.take n).length = n := by
        rw [List.length_take]
        omega
      rw [splice, List.take_append_of_le_length (by rw [List.length_append]; omega), ht,
        List.take_of_length_le (by rw [List.length_append, ← ht]; omega), List.take_add, ← hchunk]
  · refine Triple.strengthen (P := fun m => ∃ bytes, (bytes.length =
      (UInt64.ofNat stream.length).toNat ∧ bytes.take n = stream.take n) ∧
      P m ∧ m.memory.Has d.config.stagingBuffer bytes) ?_ ?_
    · refine Triple.exists fun bytes => Triple.assume fun hl => ?_
      exact (h.wait bytes).relax fun _ t ht => ⟨ht.1, bytes, ht.2, hl⟩
    · rintro m ⟨hp, bytes, hs, hl⟩
      exact ⟨bytes, hl, hp, hs⟩
  · rintro n m ⟨_, bytes, ⟨_, hb⟩, hl, _⟩
    rw [hb, hl]
    exact UInt64.toNat_lt _

theorem staged_zero {m : Machine} {memory : Memory} {address : UInt64}
    (h : m.memory.alloc d.config.stagingBuffer (.ofNat stream.length) = .ok (address, memory)) :
    Staged d stream 0 { m with memory } :=
  ⟨_, Memory.has_alloc h, List.length_replicate, by rw [List.take_zero, List.take_zero]⟩

theorem Submits.queued (h : Submits d stream P S E F) {m : Machine}
    (hm : P m ∧ Staged d stream stream.length m) {queued : List Tcu.Instruction}
    (hq : Simulator.instructions d.layout (m.memory.bytes d.config.stagingBuffer) = .ok queued) :
    S { m with device := m.device.enqueue queued } := by
  obtain ⟨hp, bytes, ⟨_, hb⟩, hl, ht⟩ := hm
  have hle : bytes.length ≤ stream.length := by
    rw [hl, UInt64.toNat_ofNat']
    exact Nat.mod_le ..
  rw [List.take_of_length_le hle, List.take_length] at ht
  rw [hb, ht] at hq
  exact h.send m queued hp hq

theorem Submits.submission (h : Submits d stream P S E F) {A : Machine → Prop}
    (halloc : ∀ m, A m → m.memory.region? d.config.stagingBuffer = none → P m)
    (hfail : ∀ m, A m → F m) :
    Submission d stream (Sim.On d.layout A)
      (Filled d.layout 0 stream fun n m => P m ∧ Staged d stream n m)
      (Sim.On d.layout fun m => S m ∧ (m.memory.region? d.config.stagingBuffer).isSome = true)
      (Sim.On d.layout fun m => S m ∧ (m.memory.region? d.config.stagingBuffer).isSome = false)
      (Sim.On d.layout E) (Sim.On d.layout F) where
  alloc := by
    have hfill := h.fills
    refine Triple.relax (On.triple_send (R := fun rs m => ∃ address,
      rs = [Response.address address] ∧ P m ∧ Staged d stream 0 m)
      (Simulator.triple_alloc hfail ?_ fun _ => ?_) hfail) fun _ w hw =>
        filled_zero (hw.mono fun m hm => hm.choose_spec.2)
    · intro m address memory hp ha
      have hp' := halloc m hp (Memory.region?_eq_none_of_alloc ha)
      have hapart := ((h.apart m (.inl hp')).alloc ha).1
      exact ⟨(h.beside m memory hapart (Memory.beside_alloc ha)).1 hp', staged_zero ha⟩
    · exact (hfill.step 0).weaken (fun _ h => h) (fun _ _ h => h) h.fail
  write := h.fills.writes d.config.chunkSize.toNat_lt
  send := by
    have hstop := h.fills.stop stream.length
    refine Triple.strengthen (On.triple_send (Simulator.triple_send hstop ?_ ?_) hstop)
      fun _ hw => hw.2
    · exact fun m queued hm hs hq => ⟨h.queued hm hq, hs⟩
    · exact (h.work.and Banks.keeps_isSome).weaken (fun _ h => h) (fun _ _ h => h) fun _ h => h.1
  release := by
    have hleak : ∀ m, S m ∧ (m.memory.region? d.config.stagingBuffer).isSome = true → F m :=
      fun m hm => h.leak m hm.1 hm.2
    refine On.triple_send (R := fun _ m => S m ∧
      (m.memory.region? d.config.stagingBuffer).isSome = false)
      (Simulator.triple_dealloc hleak ?_ ?_) hleak
    · intro m memory hm hr
      have hapart := (h.apart m (.inr (.inl hm.1))).dealloc hr
      refine ⟨(h.beside m memory hapart (Memory.beside_dealloc hr)).2.1 hm.1, ?_⟩
      rw [Memory.region?_dealloc hr, if_pos rfl]
      rfl
    · exact (h.work.and Banks.keeps_isSome).weaken (fun _ h => h) (fun _ _ h => h)
        fun m hm => h.fail m hm.1
  cleanup := by
    refine (On.triple_send (R := fun _ => E) (Simulator.triple_dealloc h.fail ?_ ?_) h.fail).relax
      fun _ _ hs => hs.mono h.fail
    · intro m memory hm hr
      have hapart := (h.apart m (.inr (.inr hm))).dealloc hr
      exact (h.beside m memory hapart (Memory.beside_dealloc hr)).2.2 hm
    · exact h.keep.weaken (fun _ h => h) (fun _ _ h => h) h.fail
  stop _ hw := hw.2.mono (h.fills.stop 0)
  fail _ hw := hw.mono hfail

/-- A stream that is not empty is submitted as a whole, and its buffer is gone, or not at all. -/
theorem triple_dmaWrite (h : Submits d stream P S E F) (hne : stream ≠ [])
    {A : Machine → Prop}
    (halloc : ∀ m, A m → m.memory.region? d.config.stagingBuffer = none → P m)
    (hfail : ∀ m, A m → F m) :
    Triple (On d A) (dmaWrite stream)
      (fun _ => On d fun m => S m ∧ (m.memory.region? d.config.stagingBuffer).isSome = false)
      (On d F) :=
  ((h.submission halloc hfail).dmaWrite hne).weaken (fun _ hs => ⟨hs.driver, hs.remote⟩)
    (fun _ _ hs => ⟨hs.1, hs.2⟩) fun _ hs => ⟨hs.1, hs.2⟩

end Submit

end Driving

end TensorUnit.Host
