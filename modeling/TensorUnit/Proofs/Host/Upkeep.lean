import TensorUnit.Proofs.Host.Calls
import TensorUnit.Proofs.Host.History

namespace TensorUnit.Host

open TensorUnit.Action (Triple Keeps KeepsOr)
open Remote Sim
open Tcu (Instruction)

variable {d : Driver} {α : Type}

section Machines

variable {layout : Tcu.Layout} {J : Machine → Prop} {name : String}
variable (hn : Keeps J Machine.executeNext)
include hn

theorem writable_on
    (hw : ∀ m offset data, J m → J { m with memory := m.memory.write name offset data }) :
    Writable (Sim.On layout J) (Sim.On layout J) name := by
  intro position chunk
  exact On.triple_send (R := fun _ => J) (Simulator.triple_writeWindow (fun _ h => h)
    (fun m h _ _ => hw m position chunk h) hn) fun _ h => h

theorem readable_on : Readable (Sim.On layout J) (Sim.On layout J) name := by
  intro position length
  refine Triple.relax (On.triple_send (Simulator.triple_read (R := fun _ => J) (fun _ h => h)
    (fun _ h _ _ => h) fun _ => hn) fun _ h => h) fun _ w hw => ?_
  exact hw.mono fun _ h => h.choose_spec.2

theorem keeps_releases (hd : d.Sound)
    (hdealloc : ∀ m memory name, J m → name ≠ d.config.stagingBuffer →
      m.memory.dealloc name = .ok memory → J { m with memory }) :
    ∀ p ∈ Driving.releases d.config, Keeps (Sim.On layout J)
      (execute [p] : Action (Switch Simulator) RemoteError _) := by
  have hbank : ∀ k, Keeps (Sim.On layout J)
      (execute [.bufferDealloc (d.banks.name k)] : Action (Switch Simulator) RemoteError _) :=
    fun k => On.triple_send (R := fun _ => J) (Simulator.triple_dealloc (fun _ h => h)
      (fun m memory h => hdealloc m memory _ h (hd.staging k)) hn) fun _ h => h
  intro p hp
  simp only [Driving.releases, List.mem_cons, List.not_mem_nil, or_false] at hp
  rcases hp with rfl | rfl | rfl
  · exact hbank .dram0
  · exact hbank .dram1
  · exact On.triple_send (R := fun _ => J) (Simulator.triple_closeChannel (fun _ h => h) hn)
      fun _ h => h

end Machines

theorem Driver.Sound.load (hd : d.Sound) (loaded : Option LoadedModel) :
    ({ d with loaded } : Driver).Sound :=
  ⟨hd.fit, hd.layout, hd.staging, hd.mem, hd.depth, hd.source, hd.target, hd.scratchpad,
    hd.arraySize, hd.maxRaw⟩

namespace Driving

def Held (h : Driving (Switch Simulator)) : Prop :=
  h.driver.Sound ∧ On h.driver h.driver.banks.Hold h

theorem Over.held (hd : d.Sound) {h : Driving (Switch Simulator)}
    (ho : Over d (Sim.On d.layout d.banks.Hold) h) : h.Held := by
  obtain ⟨⟨generation, outstanding, he⟩, hr⟩ := ho
  rw [Held, he]
  exact ⟨hd.probing .., he, hr⟩

theorem Submits.keeps {stream : List UInt8} {J : Machine → Prop}
    (h : ∀ generation outstanding, Submits (d.probing generation outstanding) stream J J J J) :
    Keeps (Over d (Sim.On d.layout J)) (dmaWrite stream) := by
  cases stream with
  | nil =>
    apply (triple_openOver fun _ h => h).bind
    exact fun _ => Keeps.pure
  | cons byte rest =>
    refine triple_over fun generation outstanding => ?_
    exact (triple_dmaWrite (h generation outstanding) (List.cons_ne_nil byte rest) (A := J)
      (fun _ h _ => h) fun _ h => h).weaken (fun _ h => ⟨h.1, h.2⟩)
        (fun _ s hs => ⟨hs.driver, hs.remote.mono fun _ h => h.1⟩) fun _ h => ⟨h.driver, h.remote⟩

section Sound

variable (hd : d.Sound)
include hd

theorem keeps_hold_alloc {size : UInt64} : Keeps (Sim.On d.layout d.banks.Hold)
    (execute [.bufferAlloc d.config.stagingBuffer size] :
      Action (Switch Simulator) RemoteError _) := by
  refine Triple.relax (On.triple_send (Simulator.triple_alloc (R := fun _ => d.banks.Hold)
    (fun _ h => h) ?_ fun _ => Banks.keeps_hold) fun _ h => h) fun _ w hw =>
      hw.mono fun _ h => h.choose_spec.2
  exact fun m address memory h ha =>
    h.beside hd.staging (h.apart.alloc ha).1 (Memory.beside_alloc ha)

theorem keeps_dmaWrite_hold {stream : List UInt8} :
    Keeps (Over d (Sim.On d.layout d.banks.Hold)) (dmaWrite stream) := by
  apply keeps_dmaWrite
  · exact fun _ => keeps_hold_alloc hd
  · exact (writable_on Banks.keeps_hold fun m offset data h => h.write ..).storable fun _ h => h
  · exact On.triple_send (R := fun _ => d.banks.Hold) (Simulator.triple_send (fun _ h => h)
      (fun m queued h _ _ => ⟨h.arch, h.cells, h.apart, h.extents⟩) Banks.keeps_hold) fun _ h => h
  · refine On.triple_send (R := fun _ => d.banks.Hold) (Simulator.triple_dealloc (fun _ h => h) ?_
      Banks.keeps_hold) fun _ h => h
    exact fun m memory h ha =>
      h.beside hd.staging (h.apart.dealloc ha) (Memory.beside_dealloc ha)

/-- How a stream is submitted to a machine that finds its banks: `J` holds until the stream is
queued, `K` from then on, and `E` when the unit has faulted. -/
structure Sends (d : Driver) (stream : List UInt8) (J K E : Machine → Prop) : Prop where
  ready : ∀ m, J m ∨ K m ∨ E m → d.banks.Ready m
  beside : ∀ m memory, memory.Apart → Memory.Beside d.config.stagingBuffer m.memory memory →
    (J m → J { m with memory }) ∧ (K m → K { m with memory }) ∧ (E m → E { m with memory })
  send : ∀ m queued, J m → Simulator.instructions d.layout stream = .ok queued →
    K { m with device := m.device.enqueue queued }
  wait : Triple J Machine.executeNext (fun _ => J) E
  work : Triple K Machine.executeNext (fun _ => K) E
  keep : Keeps E Machine.executeNext
  stop : ∀ m, J m ∨ K m → E m

theorem Sends.submits {stream : List UInt8} {J K E : Machine → Prop} (h : Sends d stream J K E) :
    Submits d stream J K E E where
  apart m hm := (h.ready m hm).hold.apart
  beside := h.beside
  send := h.send
  wait bytes := by
    have hready : Triple (fun m => d.banks.Ready m ∧ True) Machine.executeNext
        (fun _ m => d.banks.Ready m ∧ True) fun _ => True :=
      (Banks.steady_ready hd.fit).triple.weaken (fun _ h => h.1) (fun _ _ h => ⟨h, trivial⟩)
        fun _ _ => trivial
    exact (h.wait.and ((Banks.steady_ready hd.fit).triple_has hd.staging hready)).weaken
      (fun m hm => ⟨hm.1, ⟨h.ready m (.inl hm.1), trivial⟩, hm.2⟩) (fun _ _ hm => ⟨hm.1, hm.2.2⟩)
      fun _ hm => hm.1
  work := h.work
  keep := h.keep
  stop m hm := h.stop m (.inl hm)
  fail _ hm := hm
  leak m hm _ := h.stop m (.inr hm)

omit hd in
theorem Sends.of_keeps {stream : List UInt8} {J : Machine → Prop}
    (hready : ∀ m, J m → d.banks.Ready m) (hn : Keeps J Machine.executeNext)
    (hbeside : ∀ m memory, J m → memory.Apart →
      Memory.Beside d.config.stagingBuffer m.memory memory → J { m with memory })
    (hsend : ∀ m queued, J m → Simulator.instructions d.layout stream = .ok queued →
      J { m with device := m.device.enqueue queued }) : Sends d stream J J J where
  ready m h := hready m (h.elim id fun h => h.elim id id)
  beside m memory ha hb :=
    ⟨(hbeside m memory · ha hb), (hbeside m memory · ha hb), (hbeside m memory · ha hb)⟩
  send := hsend
  wait := hn
  work := hn
  keep := hn
  stop _ h := h.elim id id

theorem keeps_dmaWrite_ready {J : Machine → Prop} (hready : ∀ m, J m → d.banks.Ready m)
    (hn : Keeps J Machine.executeNext)
    (hbeside : ∀ m memory, J m → memory.Apart →
      Memory.Beside d.config.stagingBuffer m.memory memory → J { m with memory })
    {stream : List UInt8}
    (hsend : ∀ m queued, J m → Simulator.instructions d.layout stream = .ok queued →
      J { m with device := m.device.enqueue queued }) :
    Keeps (Over d (Sim.On d.layout J)) (dmaWrite stream) := by
  apply Submits.keeps
  intro generation outstanding
  have hsends : Sends (d.probing generation outstanding) stream J J J :=
    .of_keeps hready hn hbeside hsend
  exact hsends.submits (hd.probing ..)

theorem keeps_held_simple {op : Operation} (h : op.Simple) :
    KeepsOr (Over d (Sim.On d.layout d.banks.Hold)) (fun _ _ => False) (perform op) := by
  refine keepsOr_simple (fun bank => ?_)
    (fun bank => (readable_on Banks.keeps_hold).loadable fun _ h => h) h
    (fun _ _ => (keeps_dmaWrite_hold hd).or) fun _ _ _ _ _ => (keeps_dmaWrite_hold hd).or
  exact (writable_on Banks.keeps_hold fun m offset data h => h.write ..).storable fun _ h => h

end Sound

theorem held_after {h : Driving (Switch Simulator)} (hh : h.Held) {op : Operation}
    (hop : op ≠ .close) : (h.after op).Held := by
  obtain ⟨hd, _, hr⟩ := hh
  have hover : Over h.driver (Sim.On h.driver.layout h.driver.banks.Hold) h :=
    ⟨⟨h.driver.probe.generation, h.driver.probe.outstanding, rfl⟩, hr⟩
  rcases after_of_simple (A := fun _ => True) (fun _ ho => ho.1) (fun _ _ _ _ => trivial)
    (fun _ hs _ => keeps_held_simple hd hs) trivial hop hover with
    (hk | ⟨t, loaded, ht, he, _⟩) | ⟨_, _, hf⟩
  · exact hk.held hd
  · obtain ⟨hd', _, hr'⟩ := ht.held hd
    rw [he]
    exact ⟨hd'.load (some loaded), rfl, hr'⟩
  · exact hf.elim

/-- A driver whose parts fit and whose model is well placed, with what is known of its machine
between two operations. -/
structure Standing (K : Driver → Machine → Prop) (h : Driving (Switch Simulator)) : Prop where
  sound : h.driver.Sound
  placed : h.driver.Placed
  on : On h.driver (K h.driver) h

section Standing

variable {K : Driver → Machine → Prop} {h : Driving (Switch Simulator)}

theorem Standing.tune (hs : h.Standing K) (stall : Bool)
    (instructionsPerCall failBufferWriteAt : Option Nat) :
    (h.tune stall instructionsPerCall failBufferWriteAt).Standing K :=
  ⟨hs.sound, hs.placed, hs.on.tune ..⟩

theorem Standing.replan (hs : h.Standing K) {plan : FaultPlan} (fails : OnlyFails plan)
    (clock : Clock) : (h.replan plan clock).Standing K :=
  ⟨hs.sound, hs.placed, hs.on.replan fails clock⟩

/-- What the simple operations of a kind keep is kept by every operation of that kind. Beside it
they may keep something else. -/
theorem Standing.after (hs : h.Standing K) {A : Operation → Prop}
    {E : DriverError → Driving (Switch Simulator) → Prop} {I : Driving (Switch Simulator) → Prop}
    (hI : ∀ s, I s → OnAny h.driver K s) (hi : I h)
    (parts : ∀ op part, A op → h.driver.Makes op part → A part)
    (simple : ∀ op, op.Simple → A op → KeepsOr I E (perform op))
    (hload : ∀ d m loaded, K d m → K { d with loaded := some loaded } m) {op : Operation}
    (ha : A op) (hop : op ≠ .close) :
    (h.after op).Standing K ∨ ∃ e, ((perform op).run h).1 = .error e ∧ E e (h.after op) := by
  obtain ⟨hd, hp, hon⟩ := hs
  have hprobing : ∀ s, I s →
      ∃ generation outstanding, s.driver = h.driver.probing generation outstanding :=
    fun s hs => (hI s hs).imp fun _ => Exists.imp fun _ hs => hs.driver
  refine (after_of_simple hprobing parts simple ha hop hi).imp_left ?_
  rintro (ht | ⟨t, loaded, ht, he, htakes⟩)
  · obtain ⟨g, o, hs⟩ := hI _ ht
    refine ⟨?_, ?_, ?_⟩
    · rw [hs.driver]
      exact hd.probing ..
    · rw [hs.driver]
      exact hp
    · rw [hs.driver]
      exact hs
  · obtain ⟨g, o, hs⟩ := hI t ht
    have hdriver : (h.after op).driver =
        { h.driver.probing g o with loaded := some loaded } := by
      rw [he, load, hs.driver]
    refine ⟨?_, ?_, ?_⟩
    · rw [hdriver]
      exact (hd.probing g o).load (some loaded)
    · rintro _ hl
      rw [hdriver] at hl ⊢
      cases hl
      exact htakes.placed
    · rw [hdriver]
      refine ⟨hdriver, ?_⟩
      rw [he]
      exact hs.remote.mono fun m hm => hload _ m loaded hm

end Standing

section Closed

variable {σ : Type} [Service σ]

def Closed (h : Driving σ) : Prop :=
  h.driver.closed = true

omit [Service σ] in
theorem triple_closed {s : Driving σ} (hc : s.Closed) {f : Unit → Act σ α} :
    Triple (fun h => h = s) (ensureOpen >>= f) (fun _ _ => False) fun h => h = s := by
  refine Triple.bind (Q := fun _ _ => False) ?_ fun _ _ h => h.elim
  refine Triple.bind (Q := fun (e : Driver) h => e.closed = true ∧ h = s)
    (Triple.view fun h hs => ⟨hs ▸ hc, hs⟩) fun e => Triple.assume fun he => ?_
  exact Triple.require (fun _ hn _ => hn he) fun _ _ h => h

omit [Service σ] in
theorem keeps_closed {s : Driving σ} (hc : s.Closed) {f : Unit → Act σ α} :
    Keeps (fun h => h = s) (ensureOpen >>= f) :=
  (triple_closed hc).relax fun _ _ h => h.elim

theorem keeps_closed_perform {s : Driving σ} (hc : s.Closed) {op : Operation} :
    Keeps (fun h => h = s) (perform op) := by
  have hsimple : ∀ op : Operation, op.Simple →
      KeepsOr (fun h => h = s) (fun _ _ => False) (perform op) := by
    intro op hop
    cases op with
    | write | writeBytes | dmaWrite => exact (keeps_closed hc).or
    | read | compare | executeStream => exact KeepsOr.discard_iff.mpr (keeps_closed hc).or
    | writeInstructions | executeProgram | flush | configure | loadConsts | loadModel | run
    | close => exact hop.elim
  by_cases hload : ∃ files path, op = .loadModel files path
  · obtain ⟨files, path, rfl⟩ := hload
    exact keeps_closed hc
  · by_cases hclose : op = .close
    · subst hclose
      refine Triple.bind (Q := fun (e : Driver) h => e.closed = true ∧ h = s)
        (Triple.view fun h hs => ⟨hs ▸ hc, hs⟩) fun e => Triple.assume fun he => ?_
      rw [if_pos he]
      exact Keeps.pure
    · refine KeepsOr.keeps (keepsOr_perform (d := s.driver) (A := fun _ => True) ?_
        (fun _ _ _ _ => trivial) (fun op hop _ => hsimple op hop) trivial
        (fun files path he => hload ⟨files, path, he⟩) hclose)
      rintro h rfl
      exact ⟨h.driver.probe.generation, h.driver.probe.outstanding, rfl⟩

theorem after_closed {h : Driving σ} (hc : h.Closed) (op : Operation) : h.after op = h :=
  (keeps_closed_perform hc).state rfl

def Shut (d : Driver) (h : Driving σ) : Prop :=
  ∃ loaded, h.driver = { d with closed := true, loaded }

variable {P : σ → Prop} (hdown : Keeps P (down : Action σ RemoteError Unit))

omit [Service σ] in
theorem triple_shut_onRemote {Q E : σ → Prop} {a : Action σ DriverError α}
    (h : Triple P a (fun _ => Q) E) :
    Triple (fun h => Shut d h ∧ P h.remote) (onRemote a) (fun _ h => Shut d h ∧ Q h.remote)
      (fun h => Shut d h ∧ E h.remote) := by
  intro s hs
  have hr := h s.remote hs.2
  rw [onRemote_run]
  cases ha : a.run s.remote with
  | mk r remote =>
    rw [ha] at hr
    cases r with
    | ok x => exact ⟨hs.1, hr⟩
    | error e => exact ⟨hs.1, hr⟩

theorem triple_shut_releaseAll {releases : List Primitive} {F : Driving σ → Prop}
    (first : Option DriverError)
    (h : ∀ p ∈ releases, Keeps P (execute [p] : Action σ RemoteError _)) :
    Triple (fun h => Shut d h ∧ P h.remote)
      (releaseAll first releases : Act σ (Option DriverError))
      (fun _ h => Shut d h ∧ P h.remote) F := by
  induction releases generalizing first with
  | nil => exact Triple.pure fun _ h => h
  | cons p rest ih =>
    have hrest := fun first => ih first fun q hq => h q (List.mem_cons_of_mem _ hq)
    refine Triple.bind (Triple.tried (triple_shut_onRemote (Triple.mapError
      (h p (List.mem_cons_self ..))))) fun r => ?_
    cases r with
    | ok _ => exact hrest _
    | error e => exact hrest _

include hdown in
/-- To close ends with a closed driver, whatever fails on the way, and keeps what the releases
keep. -/
theorem triple_close
    (hrel : ∀ p ∈ releases d.config, Keeps P (execute [p] : Action σ RemoteError _)) :
    Triple (fun h => h.driver = d ∧ P h.remote) (close : Act σ Unit)
      (fun _ h => Shut d h ∧ P h.remote) (fun h => Shut d h ∧ P h.remote) := by
  refine Triple.bind (Q := fun (e : Driver) h => e = d ∧ h.driver = d ∧ P h.remote)
    (Triple.view fun h hs => ⟨hs.1, hs⟩) fun e => Triple.assume fun he => ?_
  rw [he]
  split
  · rename_i hc
    refine Triple.pure fun h hs => ⟨⟨d.loaded, hs.1.trans ?_⟩, hs.2⟩
    rw [← hc]
  · refine Triple.bind (Q := fun _ h => Shut d h ∧ P h.remote)
      (Triple.update fun h hs => ⟨⟨none, by rw [← hs.1]⟩, hs.2⟩) fun _ => ?_
    apply Keeps.bind (triple_shut_releaseAll none hrel)
    intro first
    apply Keeps.bind (Keeps.attempt (triple_shut_onRemote (Triple.mapError hdown)))
    intro torn
    cases first with
    | some e => exact Keeps.fail
    | none => exact Keeps.ofExcept

theorem closed_close (h : Driving σ) : (h.after .close).Closed := by
  obtain ⟨⟨_, he⟩, _⟩ := (triple_close Triple.top fun _ _ => Triple.top).state
    (s := h) ⟨rfl, trivial⟩
  exact congrArg Driver.closed he

end Closed

end Driving

/-- What holds of a new driver, and is kept until the driver is closed, holds in every state in
which the driver is open. -/
theorem Reached.closed_or {A : Driver → Operation → Prop} {K : Driving (Switch Simulator) → Prop}
    (new : ∀ {arch config w₀ d w}, Sim.On (Tcu.Layout.ofDepths arch) (Blank arch) w₀ →
      (Driver.new arch config).run w₀ = (.ok d, w) → K ⟨d, w⟩)
    (perform : ∀ h op, K h → A h.driver op → op ≠ .close → K (h.after op))
    (tune : ∀ h stall instructionsPerCall failBufferWriteAt, K h →
      K (h.tune stall instructionsPerCall failBufferWriteAt))
    (replan : ∀ h plan, OnlyFails plan → ∀ clock, K h → K (h.replan plan clock))
    {h : Driving (Switch Simulator)} (hr : Reached A h) : h.Closed ∨ K h := by
  induction hr with
  | new sim_ok fails new_ok => exact .inr (new ⟨fails, blank_ofArchitecture sim_ok⟩ new_ok)
  | @perform h op _ allowed ih =>
    rcases ih with hc | hk
    · exact .inl ((Driving.after_closed hc op).symm ▸ hc)
    · by_cases hop : op = .close
      · exact .inl (hop ▸ h.closed_close)
      · exact .inr (perform h op hk allowed hop)
  | tune _ _ _ _ ih => exact ih.imp id (tune _ _ _ _)
  | replan fails clock _ ih => exact ih.imp id (replan _ _ fails clock)

theorem Reached.held {A : Driver → Operation → Prop} {h : Driving (Switch Simulator)}
    (hr : Reached A h) : h.Closed ∨ h.Held := by
  refine hr.closed_or (K := Driving.Held) (fun hblank new_ok => ?_)
    (fun _ _ hh _ hop => Driving.held_after hh hop)
    (fun _ _ _ _ hh => ⟨hh.1, hh.2.tune ..⟩)
    fun _ _ fails clock hh => ⟨hh.1, hh.2.replan fails clock⟩
  obtain ⟨hd, _, _, _, _, hon⟩ := triple_new.ok hblank new_ok
  exact ⟨hd, hon.mono fun m hm => hm.1.hold⟩

end TensorUnit.Host
