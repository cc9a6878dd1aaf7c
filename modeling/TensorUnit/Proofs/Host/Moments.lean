import TensorUnit.Proofs.Host.Upkeep
import TensorUnit.Proofs.Sim.Moments

namespace TensorUnit.Host

open TensorUnit.Action (Triple Keeps KeepsOr)
open Remote Sim

namespace Driving

def batches (h : Driving (Switch Simulator)) (op : Operation) : List Batch :=
  callsSince h.remote (h.after op).remote

/-- The machines that are about to execute an instruction while the operation is under way. -/
def moments (h : Driving (Switch Simulator)) (op : Operation) : List Machine :=
  replayMoments h.remote (h.batches op)

section Calls

variable {σ : Type} [Service σ] {d : Driver} {P : σ → Prop}
  (hcall : ∀ batch, Keeps P (execute batch : Action σ RemoteError _))
include hcall

theorem keeps_dmaWrite_of_calls (stream : List UInt8) : Keeps (Over d P) (dmaWrite stream) :=
  keeps_dmaWrite (fun _ => hcall _) (Writable.storable (fun _ h => h) fun _ _ => hcall _) (hcall _)
    (hcall _)

theorem keepsOr_of_calls {op : Operation} (hs : op.Simple) :
    KeepsOr (Over d P) (fun _ _ => False) (perform op) := by
  have hdma : ∀ stream, KeepsOr (Over d P) (fun _ _ => False) (dmaWrite stream) :=
    fun stream => (keeps_dmaWrite_of_calls hcall stream).or
  exact keepsOr_simple (fun _ => Writable.storable (fun _ h => h) fun _ _ => hcall _)
    (fun _ => Readable.loadable (fun _ h => h) fun _ _ => hcall _) hs (fun _ _ => hdma _)
    fun _ _ _ _ _ => hdma _

end Calls

end Driving

section Followed

variable {layout : Tcu.Layout} {J H E M : Machine → Prop} {w₀ : Switch Simulator}
  {X : Switch Simulator → Prop} {name : String}
variable (hf : Follows layout w₀ M H E X) (hn : Triple J Machine.executeNext (fun _ => J) E)
variable (hH : ∀ m, J m → H m) (hM : ∀ m, J m → m.device.queue ≠ [] → M m)
include hf hn hH hM

theorem writable_followed
    (hw : ∀ m offset data, J m → J { m with memory := m.memory.write name offset data }) :
    Writable (fun w => Watched w₀ M w ∧ Sim.On layout J w) X name :=
  fun position chunk => hf (Simulator.triple_applyAll_singleton
    (Simulator.triple_apply_write hH fun m h _ _ => hw m position chunk h)) hn hH hM

theorem readable_followed : Readable (fun w => Watched w₀ M w ∧ Sim.On layout J w) X name := by
  refine fun position length => hf (Simulator.triple_applyAll_singleton
    (Triple.relax (Simulator.triple_apply_read (R := fun _ => J) hH fun _ h _ _ => h)
      fun _ w hw => ?_)) hn hH hM
  exact hw.mono fun _ h => h.choose_spec.2

end Followed

section Fill

variable {layout : Tcu.Layout} {buffer : String} {offset : UInt64} {data : List UInt8}
  {I : Nat → Machine → Prop} {H E M : Machine → Prop} {w₀ : Switch Simulator}
  {X : Switch Simulator → Prop}

theorem Fills.followed (h : Fills buffer offset.toNat data I E) (hf : Follows layout w₀ M H E X)
    (hH : ∀ n m, I n m → H m) (hM : ∀ n m, I n m → m.device.queue ≠ [] → M m) {size : Nat}
    (hl : size < 2 ^ 64) :
    Writes buffer offset data size (fun n w => Watched w₀ M w ∧ Filled layout offset data I n w)
      X := by
  intro n chunk hpos hsize hn hchunk
  refine Triple.strengthen (P := fun w => (n < data.length → offset.toNat + n < 2 ^ 64) ∧
    Watched w₀ M w ∧ On layout (I n) w) (Triple.assume fun hwrap => ?_)
    fun w hw => ⟨hw.2.1, hw.1, hw.2.2⟩
  have hp := toNat_position (hwrap (by omega))
  have hlength : (UInt64.ofNat chunk.length).toNat = chunk.length :=
    UInt64.toNat_ofNat_of_lt' (by change _ < 2 ^ 64; omega)
  refine Triple.relax (Q := fun _ w => Watched w₀ M w ∧ On layout (fun m =>
    (n + chunk.length < data.length → offset.toNat + (n + chunk.length) < 2 ^ 64) ∧
      I (n + chunk.length) m) w) (hf (Simulator.triple_applyAll_singleton
        (Simulator.triple_apply_write (hH n) fun m hm hsome hfit => ?_)) ?_ (hH n)
        fun m hm => hM _ m hm.2) fun _ w hw => ⟨hw.1, hw.2.of_and⟩
  · have hsmall := h.small _ m hm
    rw [hp, hlength] at hfit
    exact ⟨fun _ => by omega, h.write _ _ _ m hm hn hchunk hp hsome hfit⟩
  · apply Triple.assume
    intro hmore
    exact (h.step _).relax fun _ _ hm => ⟨hmore, hm⟩

end Fill

section Submit

variable {d : Driver} {stream : List UInt8} {J K H E M : Machine → Prop}
  {w₀ : Switch Simulator} {X F : Switch Simulator → Prop}

/-- What is known while a stream is staged, and behind its submission, is known at every moment of
the submission; `F` is what its cleanup leaves when it has failed. -/
theorem Driving.Sends.followed (h : Sends d stream J K E) (hd : d.Sound) (hne : stream ≠ [])
    (hf : Follows d.layout w₀ M H E X) (hH : ∀ m, J m ∨ K m → H m)
    (hJ : ∀ m, J m → m.device.queue ≠ [] → M m) (hK : ∀ m, K m → m.device.queue ≠ [] → M m)
    (hX : ∀ w, Watched w₀ M w ∧ Sim.On d.layout J w → X w) (hF : ∀ w, X w → F w)
    (hcleanup : Triple X
      (execute [.bufferDealloc d.config.stagingBuffer] : Action (Switch Simulator) RemoteError _)
      (fun _ => F) F) :
    Triple (With d fun w => Watched w₀ M w ∧ Sim.On d.layout J w) (dmaWrite stream)
      (fun _ => With d fun w => Watched w₀ M w ∧ Sim.On d.layout K w) (With d F) := by
  have hsubmits := h.submits hd
  have hfills := hsubmits.fills
  have hapart : ∀ m, J m ∨ K m → m.memory.Apart := fun m hm =>
    (h.ready m (hm.imp id .inl)).hold.apart
  have hstart : ∀ m, J m → H m := fun m hm => hH m (.inl hm)
  refine Submission.dmaWrite (S := fun w => Watched w₀ M w ∧ Sim.On d.layout K w)
    (I := fun n w => Watched w₀ M w ∧
      Filled d.layout 0 stream (fun n m => J m ∧ Staged d stream n m) n w) (E := X) ?_ hne
  refine ⟨?_, hfills.followed hf (fun _ m hm => hstart m hm.1) (fun _ m hm => hJ m hm.1)
    d.config.chunkSize.toNat_lt, ?_, ?_, hcleanup,
    fun w hw => hX w ⟨hw.1, hw.2.2.mono fun m hm => hm.1⟩, fun w hw => hF w (hX w hw)⟩
  · refine (hf (R := fun m => J m ∧ Staged d stream 0 m)
      (Simulator.triple_applyAll_singleton (Triple.relax
        (Simulator.triple_apply_alloc (R := fun _ m => J m ∧ Staged d stream 0 m) hstart ?_)
        fun _ w hw => hw.mono fun _ h => h.choose_spec.2)) (hfills.step 0) hstart
      fun m hm => hJ m hm.1).weaken (fun _ hw => hw) (fun _ _ hw => ⟨hw.1, filled_zero hw.2⟩) hF
    intro m address memory hm ha
    exact ⟨(h.beside m memory ((hapart m (.inl hm)).alloc ha).1 (Memory.beside_alloc ha)).1 hm,
      staged_zero ha⟩
  · exact (hf (Simulator.triple_applyAll_send (fun m hm => hstart m hm.1)
      fun m queued hm _ hq => hsubmits.queued hm hq) h.work (fun m hm => hstart m hm.1) hK).weaken
      (fun _ hw => ⟨hw.1, hw.2.2⟩) (fun _ _ hw => hw) fun _ hw => hw
  · have hfail : ∀ m, K m → H m := fun m hm => hH m (.inr hm)
    refine (hf (Simulator.triple_applyAll_singleton (Simulator.triple_apply_dealloc
      (fun m memory hm hr => ?_) fun _ hs _ => hs.mono hfail)) h.work hfail hK).weaken
      (fun _ hw => hw) (fun _ _ hw => hw) hF
    exact (h.beside m memory ((hapart m (.inr hm)).dealloc hr) (Memory.beside_dealloc hr)).2.1 hm

theorem Driving.keeps_dmaWrite_watched (hd : d.Sound) (hready : ∀ m, J m → d.banks.Ready m)
    (hn : Keeps J Machine.executeNext)
    (hbeside : ∀ m memory, J m → memory.Apart →
      Memory.Beside d.config.stagingBuffer m.memory memory → J { m with memory })
    (hsend : ∀ m queued, J m → Simulator.instructions d.layout stream = .ok queued →
      J { m with device := m.device.enqueue queued }) (hM : ∀ m, J m → M m) :
    Keeps (Over d fun w => Watched w₀ M w ∧ Sim.On d.layout J w) (dmaWrite stream) := by
  cases stream with
  | nil =>
    apply (triple_openOver fun _ h => h).bind
    exact fun _ => Keeps.pure
  | cons byte rest =>
    refine triple_over fun generation outstanding => ?_
    have hsends : Sends (d.probing generation outstanding) (byte :: rest) J J J :=
      .of_keeps hready hn hbeside hsend
    refine hsends.followed (hd.probing ..) (List.cons_ne_nil byte rest) follows_watched
      (fun _ h => h.elim id id) (fun m hm _ => hM m hm) (fun m hm _ => hM m hm) (fun _ hw => hw)
      (fun _ hw => hw) ?_
    refine triple_watched (Simulator.triple_applyAll_singleton (Simulator.triple_apply_dealloc
      (fun m memory hm hr => ?_) fun _ hs _ => hs)) hn (fun _ h => h) fun m hm _ => hM m hm
    exact hbeside m memory hm ((hready m hm).hold.apart.dealloc hr) (Memory.beside_dealloc hr)

end Submit

end TensorUnit.Host
