import TensorUnit.Proofs.Host.Caller
import TensorUnit.Proofs.Host.Reading
import TensorUnit.Proofs.Sim.Rows

namespace TensorUnit.Host

open TensorUnit.Action (Triple Keeps KeepsOr)
open Remote Sim

namespace Driver

variable {d : Driver} {op : Operation}

/-- An operation whose caller does not tell the unit where a bank is. -/
def LeavesAimed (d : Driver) (op : Operation) : Prop :=
  ∀ instr, d.Supplies op instr → ¬ ConfiguresBank instr

theorem LeavesAimed.part (hd : d.Sound) {part : Operation} (h : d.LeavesAimed op)
    (hpart : d.Makes op part) : d.LeavesAimed part := by
  intro instr hi
  rcases hpart.supplies hd hi with hi | ⟨base, size, _, _, _, rfl⟩
  · exact h instr hi
  · exact id

end Driver

namespace Driving

variable {w₀ : Switch Simulator}

def AnchoredSince (w₀ : Switch Simulator) (d : Driver) (w : Switch Simulator) : Prop :=
  Watched w₀ d.banks.Anchored w ∧ Sim.On d.layout d.banks.Anchored w

theorem keeps_steady_dmaWrite {d : Driver} (hd : d.Sound) {stream : List UInt8}
    (hs : ∀ queued, Simulator.instructions d.layout stream = .ok queued →
      ∀ instr ∈ queued, ¬ ConfiguresBank instr) :
    Keeps (Over d (AnchoredSince w₀ d)) (dmaWrite stream) :=
  keeps_dmaWrite_watched hd (fun _ h => h.ready) (Banks.keeps_anchored hd.fit)
    (fun _ _ h ha hb => h.memory (h.ready.hold.beside hd.staging ha hb))
    (fun _ queued h hq => h.enqueue (hs queued hq)) fun _ h => h

theorem keepsOr_steady_simple {d : Driver} (hd : d.Sound) {op : Operation}
    (ho : d.LeavesAimed op) (hs : op.Simple) :
    KeepsOr (Over d (AnchoredSince w₀ d)) (fun _ _ => False) (perform op) := by
  have hn : Keeps d.banks.Anchored Machine.executeNext := Banks.keeps_anchored hd.fit
  refine keepsOr_simple (fun bank => ?_) (fun bank => ?_) hs (fun stream he => ?_)
    fun stream probe he hm hp => ?_
  · exact (writable_followed follows_watched hn (fun _ h => h) (fun _ h _ => h)
      fun m offset data h => h.memory (h.ready.hold.write ..)).storable fun _ h => h
  · exact (readable_followed follows_watched hn (fun _ h => h) fun _ h _ => h).loadable fun _ h => h
  · subst he
    exact (keeps_steady_dmaWrite hd fun queued hq instr hi => ho instr ⟨queued, hq, hi⟩).or
  · subst he
    refine (keeps_steady_dmaWrite hd fun queued hq instr hi => ?_).or
    obtain ⟨program, hprog, rfl⟩ := instructions_probe hd hm hp hq
    exact (List.mem_append.mp hi).elim (fun hi => ho instr ⟨program, hprog, hi⟩)
      (not_configuresBank_probe instr)

def Anchored (h : Driving (Switch Simulator)) : Prop :=
  h.driver.Sound ∧ On h.driver h.driver.banks.Anchored h

variable {h : Driving (Switch Simulator)}

theorem Anchored.after (ha : h.Anchored) {op : Operation} (ho : h.driver.LeavesAimed op)
    (hop : op ≠ .close) :
    (h.after op).Anchored ∧ ∀ m ∈ h.moments op, h.driver.banks.Anchored m := by
  obtain ⟨hd, hon⟩ := ha
  obtain ⟨⟨_, _, loaded, hdriver⟩, hwatched, hremote⟩ := after_of_keeps
    (A := h.driver.LeavesAimed) (fun _ _ ho hp => ho.part hd hp)
    (fun _ hs ho => keepsOr_steady_simple hd ho hs) ho hop ⟨watched_refl, hon.remote⟩
  refine ⟨⟨?_, rfl, ?_⟩, hwatched.callsSince.2⟩
  · rw [hdriver]
    exact (hd.probing ..).load loaded
  · rw [hdriver]
    exact hremote

/-- The driver beside an instance with a machine of its own, whose unit stands still, and with
nothing that gets in the way of a call. -/
def stopped (h : Driving (Switch Simulator)) (m : Machine) : Driving (Switch Simulator) :=
  { (h.tune true none none).replan ⟨[], none, none⟩ .steady with remote.remote.machine := m }

end Driving

/-- The unit of an open driver finds its banks, and nothing that is queued says otherwise. -/
theorem Reached.anchored {h : Driving (Switch Simulator)} (hr : Reached Driver.LeavesAimed h) :
    h.Closed ∨ h.Anchored := by
  refine hr.closed_or (K := Driving.Anchored) (fun hblank new_ok => ?_)
    (fun _ _ ha ho hop => (ha.after ho hop).1)
    (fun _ _ _ _ ha => ⟨ha.1, ha.2.tune ..⟩)
    fun _ _ fails clock ha => ⟨ha.1, ha.2.replan fails clock⟩
  obtain ⟨hd, _, _, _, _, hon⟩ := triple_new.ok hblank new_ok
  refine ⟨hd, hon.mono fun m hm => ⟨hm.1, fun instr hi => ?_⟩⟩
  rw [hm.2.2 rfl] at hi
  cases hi

/-- The buffers of the banks and the staging buffer are three; whatever is queued, the unit finds
the rows of the banks in those buffers, and the driver reads the same. -/
structure Driving.Agreed (h : Driving (Switch Simulator)) (m : Machine) : Prop where
  banks : h.driver.banks.name .dram0 ≠ h.driver.banks.name .dram1
  staging : ∀ k, h.driver.banks.name k ≠ h.driver.config.stagingBuffer
  device : ∀ queue, h.driver.banks.Agrees (m.withQueue queue)
  host : ∀ (k : Bank) row, row < h.driver.arch.depth k.space →
    ((read k ⟨row * h.driver.arch.arraySize⟩ h.driver.arch.arraySize).run (h.stopped m)).1 =
      .ok (h.driver.arch.dataType.ofBytes (h.driver.banks.row m k row))

/-- In every state of an open driver, and at every moment of an operation that follows, host and
device agree on the DRAM; a read needs no stopped unit where nothing is queued and no call fails. -/
theorem host_agrees_with_device {h : Driving (Switch Simulator)} {m : Machine}
    (hr : Reached Driver.LeavesAimed h) (hopen : h.driver.closed = false)
    (hm : m = h.machine ∨
      ∃ op, h.driver.LeavesAimed op ∧ op ≠ .close ∧ m ∈ h.moments op) :
    h.Agreed m ∧ (h.remote.plan.calls = [] → h.device.queue = [] →
      ∀ (k : Bank) row, row < h.driver.arch.depth k.space →
        ((Driving.read k ⟨row * h.driver.arch.arraySize⟩ h.driver.arch.arraySize).run h).1 =
          .ok (h.driver.arch.dataType.ofBytes (h.driver.banks.row h.machine k row))) := by
  have hclosed : ¬ h.Closed := fun hc => Bool.false_ne_true (hopen.symm.trans hc)
  have hanswers := hr.answers.resolve_left hclosed
  have ha := hr.anchored.resolve_left hclosed
  have hanchored : h.driver.banks.Anchored m := by
    rcases hm with rfl | ⟨op, ho, hop, hm⟩
    · exact ha.2.remote.remote.machine
    · exact (ha.after ho hop).2 m hm
  have hhold : h.driver.banks.Hold h.machine := ha.2.remote.remote.machine.ready.hold
  refine ⟨⟨ha.1.fit.names, ha.1.staging,
    fun queue => (hanchored.found.withQueue queue).agrees ha.1.fit, fun k row hrow => ?_⟩,
    fun hplan hq k row hrow => ?_⟩
  · exact Driving.read_row (h := h.stopped m) ha.1 hanchored.ready.hold hopen hanswers rfl
      (.inl rfl) hrow
  · exact Driving.read_row ha.1 hhold hopen hanswers hplan (.inr hq) hrow

section Small

/-- The small unit loads a row that it is told to while it is waited for. -/
theorem host_agrees_with_device_loading :
    ∃ h m, Reached Driver.LeavesAimed h ∧ h.driver.closed = false ∧
      m.device.queue.head? = some (.move .dram0ToLocal 0 0 0) ∧
      (m = h.machine ∨ ∃ op, h.driver.LeavesAimed op ∧ op ≠ .close ∧ m ∈ h.moments op) ∧
      h.Agreed m ∧ (h.remote.plan.calls = [] → h.device.queue = [] →
        ∀ (k : Bank) row, row < h.driver.arch.depth k.space →
          ((Driving.read k ⟨row * h.driver.arch.arraySize⟩ h.driver.arch.arraySize).run h).1 =
            .ok (h.driver.arch.dataType.ofBytes (h.driver.banks.row h.machine k row))) := by
  obtain ⟨start, hs⟩ := exists_smallStart
  have hfacts : ∀ h ∈ smallStart, h.driver.closed = false ∧
      (h.moments (.executeProgram [.move .dram0ToLocal 0 0 0])).head?.map
        (·.device.queue.head?) = some (some (.move .dram0ToLocal 0 0 0)) := by decide +kernel
  obtain ⟨hopen, hhead⟩ := hfacts start hs
  obtain ⟨m, hm, hq⟩ := Option.map_eq_some_iff.mp hhead
  have hallowed : start.driver.LeavesAimed (.executeProgram [.move .dram0ToLocal 0 0 0]) := by
    intro instr hi
    rw [List.mem_singleton.mp hi]
    exact id
  have hmoment : m = start.machine ∨ ∃ op, start.driver.LeavesAimed op ∧ op ≠ .close ∧
      m ∈ start.moments op :=
    .inr ⟨_, hallowed, fun he => (nomatch he), List.mem_of_head? hm⟩
  exact ⟨start, m, reached_smallStart hs, hopen, hq, hmoment,
    host_agrees_with_device (reached_smallStart hs) hopen hmoment⟩

end Small

end TensorUnit.Host
