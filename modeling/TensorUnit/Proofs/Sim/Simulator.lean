import TensorUnit.Proofs.Sim.Queue
import TensorUnit.Proofs.Tcu.RoundTrip
import TensorUnit.Remote.Switch
import TensorUnit.Sim.Simulator

namespace TensorUnit.Sim

open TensorUnit.Action (Triple Keeps Raises)
open Remote

theorem Memory.checkWindow_eq_ok_iff {m : Memory} {name : String} {offset length : UInt64} :
    m.checkWindow name offset length = .ok () ↔
      (m.region? name).isSome ∧ offset.toNat + length.toNat ≤ (m.bytes name).length := by
  unfold checkWindow bytes
  cases m.region? name with
  | none => exact ⟨fun h => (nomatch h), fun h => (nomatch h.1)⟩
  | some region =>
    simp only
    split
    · exact ⟨fun _ => ⟨rfl, ‹_›⟩, fun _ => rfl⟩
    · exact ⟨fun h => (nomatch h), fun h => absurd h.2 ‹_›⟩

namespace Simulator

structure At (layout : Tcu.Layout) (P : Machine → Prop) (s : Simulator) : Prop where
  layout : s.layout = layout
  machine : P s.machine

variable {layout : Tcu.Layout} {P Q E : Machine → Prop} {F : Simulator → Prop} {α : Type}

theorem At.exists {ι : Type} {P : ι → Machine → Prop} {s : Simulator}
    (h : At layout (fun m => ∃ i, P i m) s) : ∃ i, At layout (P i) s := by
  obtain ⟨hl, i, hi⟩ := h
  exact ⟨i, hl, hi⟩

theorem At.of_and {p : Prop} {s : Simulator} (h : At layout (fun m => p ∧ P m) s) :
    p ∧ At layout P s :=
  ⟨h.machine.1, h.layout, h.machine.2⟩

theorem At.mono {s : Simulator} (h : At layout P s) (hp : ∀ m, P m → Q m) : At layout Q s :=
  ⟨h.layout, hp _ h.machine⟩

theorem triple_count {f : Stats → Stats} :
    Triple (At layout P) (count f) (fun _ => At layout P) F :=
  Triple.update fun _ h => ⟨h.layout, h.machine⟩

theorem triple_updateMemory {f : Memory → Memory}
    (h : ∀ m, P m → Q { m with memory := f m.memory }) :
    Triple (At layout P) (updateMemory f) (fun _ => At layout Q) F :=
  Triple.update fun s hs => ⟨hs.layout, h s.machine hs.machine⟩

theorem onMachine_run (a : Machine.Step α) (s : Simulator) :
    (onMachine a).run s =
      match a.run s.machine with
      | (.ok x, machine) => (.ok x, { s with machine })
      | (.error fault, machine) =>
        (.error (.device fault),
          { s with machine, overflowed := s.overflowed || fault = .addressOverflow }) := by
  cases s
  rfl

theorem triple_onMachine {a : Machine.Step α} {R : α → Machine → Prop} (h : Triple P a R E) :
    Triple (At layout P) (onMachine a) (fun x => At layout (R x)) (At layout E) := by
  intro s hs
  rw [onMachine_run]
  have hm := h s.machine hs.machine
  cases hr : a.run s.machine with
  | mk r machine =>
    rw [hr] at hm
    cases r with
    | ok x => exact ⟨hs.layout, hm⟩
    | error fault => exact ⟨hs.layout, hm⟩

theorem triple_stepDevice (h : Triple P Machine.executeNext (fun _ => P) E) :
    Triple (At layout P) stepDevice (fun _ => At layout P) (At layout E) := by
  apply Triple.bind (Q := fun _ => At layout P) (Triple.view fun _ h => h)
  intro config
  split
  · exact Triple.pure fun _ h => h
  · apply (triple_onMachine (Machine.triple_step h _)).bind
    intro _
    exact Triple.pure fun _ h => h

/-- A call is its batch and then a step, which keeps what the batch has reached. -/
theorem triple_execute {batch : Batch} {R : List Response → Machine → Prop}
    (happly : Triple (At layout P) (applyAll batch) (fun rs => At layout (R rs)) (At layout E))
    (hstep : ∀ rs, Triple (R rs) Machine.executeNext (fun _ => R rs) E) (hfail : ∀ m, P m → E m) :
    Triple (At layout P) (execute batch) (fun rs => At layout (R rs)) (At layout E) := by
  apply Triple.bind (Q := fun _ => At layout P) (Triple.view fun _ h => h)
  intro up
  refine Triple.bind (Q := fun _ => At layout P)
    (Triple.require (fun _ _ h => h) fun _ _ h => h.mono hfail) fun _ => ?_
  refine triple_count.bind fun _ => happly.bind fun rs => ?_
  exact (triple_stepDevice (hstep rs)).bind fun _ => Triple.pure fun _ h => h

theorem triple_applyAll_cons {p : Primitive} {ps : Batch} {R : List Response → Simulator → Prop}
    {R' : List Response → Simulator → Prop} {S : Simulator → Prop} (h : Triple S (apply p) R F)
    (hs : ∀ first, Triple (R first) (applyAll ps) (fun rest => R' (first ++ rest)) F) :
    Triple S (applyAll (p :: ps)) R' F :=
  h.bind fun first => (hs first).bind fun _ => Triple.pure fun _ h => h

theorem triple_applyAll_singleton {p : Primitive} {R : List Response → Simulator → Prop}
    {S : Simulator → Prop} (h : Triple S (apply p) R F) : Triple S (applyAll [p]) R F := by
  refine triple_applyAll_cons h fun first => Triple.pure fun s hs => ?_
  rwa [List.append_nil]

theorem triple_apply_open {name : String} :
    Triple (At layout P) (apply (.dmaAlloc name))
      (fun rs => At layout fun m => rs = [] ∧ P m) F := by
  refine Triple.bind (Q := fun _ => At layout P)
    (Triple.update fun _ h => ⟨h.layout, h.machine⟩) fun _ => ?_
  exact Triple.pure fun _ h => h.mono fun _ hm => ⟨rfl, hm⟩

theorem triple_apply_dealloc {name : String}
    (h : ∀ m memory, P m → m.memory.dealloc name = .ok memory → Q { m with memory })
    (hnone : ∀ s, At layout P s → s.memory.region? name = none → F s) :
    Triple (At layout P) (apply (.bufferDealloc name)) (fun _ => At layout Q) F := by
  refine Triple.bind (Q := fun _ => At layout Q) ?_ fun _ => Triple.pure fun _ h => h
  refine Triple.bind (Q := fun r s => At layout P s ∧ r = s.memory.dealloc name)
    (Triple.view fun s h => ⟨h, rfl⟩) fun r => ?_
  cases r with
  | ok memory =>
    refine Triple.bind (Q := fun x s => x = memory ∧ At layout P s ∧
      s.memory.dealloc name = .ok memory) (fun s hs => ⟨rfl, hs.1, hs.2.symm⟩)
      fun x => Triple.assume fun hx => Triple.update ?_
    subst hx
    rintro s ⟨hs, hd⟩
    exact ⟨hs.layout, h s.machine x hs.machine hd⟩
  | error e =>
    refine Triple.bind (Q := fun _ _ => False) (Triple.fail fun s hs => ?_) fun _ _ h => h.elim
    refine hnone s hs.1 (Option.not_isSome_iff_eq_none.mp fun hsome => ?_)
    have hd := hs.2
    rw [Memory.dealloc, if_pos hsome] at hd
    cases hd

theorem triple_checkWindow {name : String} {offset length : UInt64} :
    Triple (At layout P) (checkWindow name offset length)
      (fun _ => At layout fun m => P m ∧ (m.memory.region? name).isSome ∧
        offset.toNat + length.toNat ≤ (m.memory.bytes name).length) (At layout P) := by
  refine Triple.bind (Q := fun r s => At layout P s ∧ r = s.memory.checkWindow name offset length)
    (Triple.view fun s h => ⟨h, rfl⟩) fun r => ?_
  refine Triple.ofExcept (fun _ s hr h => ⟨h.1.layout, h.1.machine, ?_⟩) fun _ h => h.1
  exact Memory.checkWindow_eq_ok_iff.mp (h.2.symm.trans hr)

section Primitives

variable (hfail : ∀ m, P m → E m)
include hfail

theorem triple_apply_write {name : String} {offset : UInt64} {data : List UInt8}
    (h : ∀ m, P m → (m.memory.region? name).isSome →
      offset.toNat + (UInt64.ofNat data.length).toNat ≤ (m.memory.bytes name).length →
      Q { m with memory := m.memory.write name offset data }) :
    Triple (At layout P) (apply (.bufferWrite name offset data)) (fun _ => At layout Q)
      (At layout E) := by
  refine Triple.bind (Q := fun _ => At layout Q) ?_ fun _ => Triple.pure fun _ h => h
  apply Triple.bind (Q := fun _ => At layout P) (Triple.view fun _ h => h)
  intro index
  apply triple_count.bind
  intro _
  apply Triple.bind (Q := fun _ => At layout P) (Triple.view fun _ h => h)
  intro failing
  refine Triple.bind (Q := fun _ => At layout P)
    (Triple.require (fun _ _ h => h) fun _ _ h => h.mono hfail) fun _ => ?_
  refine Triple.bind (Q := fun _ => At layout P) ?_ fun _ => ?_
  · apply Triple.bind (Q := fun _ => At layout P) (Triple.view fun _ h => h)
    intro limit
    exact Triple.require (fun _ _ h => h) fun _ _ h => h.mono hfail
  refine (triple_checkWindow.weaken (fun _ h => h) (fun _ _ h => h)
    fun _ h => h.mono hfail).bind fun _ => ?_
  exact Triple.bind (triple_updateMemory fun m hm => h m hm.1 hm.2.1 hm.2.2) fun _ => triple_count

theorem triple_writeWindow {name : String} {offset : UInt64} {data : List UInt8}
    (h : ∀ m, P m → (m.memory.region? name).isSome →
      offset.toNat + (UInt64.ofNat data.length).toNat ≤ (m.memory.bytes name).length →
      Q { m with memory := m.memory.write name offset data })
    (hstep : Triple Q Machine.executeNext (fun _ => Q) E) :
    Triple (At layout P) (execute [.bufferWrite name offset data]) (fun _ => At layout Q)
      (At layout E) :=
  triple_execute (R := fun _ => Q) (triple_applyAll_singleton (triple_apply_write hfail h))
    (fun _ => hstep) hfail

theorem triple_write {name : String} {offset : UInt64} {data : List UInt8}
    (hd : data.length < 2 ^ 64)
    (h : ∀ m, P m → (m.memory.region? name).isSome →
      offset.toNat + data.length ≤ (m.memory.bytes name).length →
      Q { m with memory := m.memory.write name offset data })
    (hstep : Triple Q Machine.executeNext (fun _ => Q) E) :
    Triple (At layout P) (execute [.bufferWrite name offset data]) (fun _ => At layout Q)
      (At layout E) := by
  refine triple_writeWindow hfail (fun m hp hs hl => h m hp hs ?_) hstep
  rwa [UInt64.toNat_ofNat_of_lt' hd] at hl

theorem triple_apply_read {name : String} {offset length : UInt64}
    {R : List UInt8 → Machine → Prop}
    (h : ∀ m, P m → (m.memory.region? name).isSome →
      offset.toNat + length.toNat ≤ (m.memory.bytes name).length →
      R (m.memory.read name offset length) m) :
    Triple (At layout P) (apply (.bufferRead name offset length))
      (fun rs => At layout fun m => ∃ data, rs = [.data data] ∧ R data m) (At layout E) := by
  refine Triple.bind (Q := fun _ => At layout P) ?_ fun _ => ?_
  · apply Triple.bind (Q := fun _ => At layout P) (Triple.view fun _ h => h)
    intro limit
    exact Triple.require (fun _ _ h => h) fun _ _ h => h.mono hfail
  refine (triple_checkWindow.weaken (fun _ h => h) (fun _ _ h => h)
    fun _ h => h.mono hfail).bind fun _ => ?_
  refine Triple.bind (Q := fun data => At layout (R data)) (Triple.view ?_) fun data => ?_
  · rintro s ⟨hlay, hp, hs, hl⟩
    exact ⟨hlay, h s.machine hp hs hl⟩
  · exact triple_count.bind fun _ => Triple.pure fun _ h => h.mono fun m hm => ⟨data, rfl, hm⟩

theorem triple_read {name : String} {offset length : UInt64} {R : List UInt8 → Machine → Prop}
    (h : ∀ m, P m → (m.memory.region? name).isSome →
      offset.toNat + length.toNat ≤ (m.memory.bytes name).length →
      R (m.memory.read name offset length) m)
    (hstep : ∀ data, Triple (R data) Machine.executeNext (fun _ => R data) E) :
    Triple (At layout P) (execute [.bufferRead name offset length])
      (fun rs => At layout fun m => ∃ data, rs = [.data data] ∧ R data m) (At layout E) := by
  refine triple_execute (R := fun rs m => ∃ data, rs = [Response.data data] ∧ R data m)
    (triple_applyAll_singleton (triple_apply_read hfail h)) (fun rs => ?_) hfail
  refine Triple.exists fun data => Triple.assume fun he => ?_
  exact (hstep data).relax fun _ _ hm => ⟨data, he, hm⟩

theorem triple_apply_alloc {name : String} {size : UInt64} {R : UInt64 → Machine → Prop}
    (h : ∀ m address memory, P m → m.memory.alloc name size = .ok (address, memory) →
      R address { m with memory }) :
    Triple (At layout P) (apply (.bufferAlloc name size))
      (fun rs => At layout fun m => ∃ address, rs = [.address address] ∧ R address m)
      (At layout E) := by
  refine Triple.bind
    (Q := fun r s => At layout P s ∧ r = s.memory.alloc name size)
    (Triple.view fun s h => ⟨h, rfl⟩) fun r => ?_
  refine Triple.bind (Q := fun x s => At layout P s ∧ s.memory.alloc name size = .ok x)
    (Triple.ofExcept (fun x s hr h => ⟨h.1, h.2.symm.trans hr⟩) fun _ h => h.1.mono hfail) ?_
  rintro ⟨address, memory⟩
  refine Triple.bind (Q := fun _ => At layout (R address)) (Triple.update ?_) fun _ => ?_
  · rintro s ⟨hs, ha⟩
    exact ⟨hs.layout, h s.machine address memory hs.machine ha⟩
  · exact Triple.pure fun _ h => h.mono fun m hm => ⟨address, rfl, hm⟩

theorem triple_alloc {name : String} {size : UInt64} {R : UInt64 → Machine → Prop}
    (h : ∀ m address memory, P m → m.memory.alloc name size = .ok (address, memory) →
      R address { m with memory })
    (hstep : ∀ address, Triple (R address) Machine.executeNext (fun _ => R address) E) :
    Triple (At layout P) (execute [.bufferAlloc name size])
      (fun rs => At layout fun m => ∃ address, rs = [.address address] ∧ R address m)
      (At layout E) := by
  refine triple_execute (R := fun rs m => ∃ address, rs = [Response.address address] ∧ R address m)
    (triple_applyAll_singleton (triple_apply_alloc hfail h)) (fun rs => ?_) hfail
  refine Triple.exists fun address => Triple.assume fun he => ?_
  exact (hstep address).relax fun _ _ hm => ⟨address, he, hm⟩

theorem triple_dealloc {name : String}
    (h : ∀ m memory, P m → m.memory.dealloc name = .ok memory → Q { m with memory })
    (hstep : Triple Q Machine.executeNext (fun _ => Q) E) :
    Triple (At layout P) (execute [.bufferDealloc name]) (fun _ => At layout Q)
      (At layout E) :=
  triple_execute (R := fun _ => Q) (triple_applyAll_singleton
    (triple_apply_dealloc h fun _ hs _ => hs.mono hfail)) (fun _ => hstep) hfail

theorem triple_closeChannel {name : String} (hstep : Triple P Machine.executeNext (fun _ => P) E) :
    Triple (At layout P) (execute [.dmaDealloc name]) (fun _ => At layout P) (At layout E) := by
  refine triple_execute (R := fun _ => P) (triple_applyAll_singleton ?_) (fun _ => hstep) hfail
  refine Triple.bind (Q := fun _ => At layout P) ?_ fun _ => Triple.pure fun _ h => h
  refine Triple.bind (Q := fun _ => At layout P) ?_ fun _ =>
    Triple.update fun _ h => ⟨h.layout, h.machine⟩
  refine Triple.bind (Q := fun _ => At layout P) (Triple.view fun _ h => h) fun channels => ?_
  exact Triple.require (fun _ _ h => h) fun _ _ h => h.mono hfail

/-- To send a buffer and wait for the channel queues the instructions in the buffer, or fails before
it has queued anything. -/
theorem triple_applyAll_send {channel source : String} {timeout : Duration}
    (h : ∀ m queued, P m → (m.memory.region? source).isSome →
      instructions layout (m.memory.bytes source) = .ok queued →
      Q { m with device := m.device.enqueue queued }) :
    Triple (At layout P) (applyAll [.dmaWrite channel source, .dmaWait channel timeout])
      (fun _ => At layout Q) (At layout E) := by
  refine Triple.bind (Q := fun _ s => At layout Q s ∧ channel ∈ s.channels) ?_ fun _ => ?_
  · refine Triple.bind (Q := fun _ s => At layout Q s ∧ channel ∈ s.channels) ?_
      fun _ => Triple.pure fun _ h => h
    refine Triple.bind (Q := fun _ s => At layout P s ∧ channel ∈ s.channels) ?_ fun _ => ?_
    · refine Triple.bind (Q := fun channels s => At layout P s ∧ channels = s.channels)
        (Triple.view fun s h => ⟨h, rfl⟩) fun channels => ?_
      exact Triple.require (fun s hc h => ⟨h.1, h.2 ▸ hc⟩) fun _ _ h => h.1.mono hfail
    refine Triple.bind
      (Q := fun region s => (At layout P s ∧ channel ∈ s.channels) ∧
        region = s.memory.region? source) (Triple.view fun s h => ⟨h, rfl⟩) fun region => ?_
    cases region with
    | none => exact Triple.fail fun _ h => h.1.1.mono hfail
    | some region =>
      refine Triple.bind
        (Q := fun l s => l = layout ∧ (At layout P s ∧ channel ∈ s.channels) ∧
          some region = s.memory.region? source)
        (Triple.view fun s h => ⟨h.1.1.layout, h⟩) fun l => Triple.assume fun hl => ?_
      subst hl
      cases hi : instructions l region.contents.data.toList with
      | error fault => exact Triple.fail fun _ h => h.1.1.mono hfail
      | ok queued =>
        refine Triple.bind (Q := fun _ s => At l Q s ∧ channel ∈ s.channels)
          (Triple.update ?_) fun _ => Triple.update fun _ h => ⟨⟨h.1.layout, h.1.machine⟩, h.2⟩
        rintro s ⟨⟨hs, hc⟩, hr⟩
        have hr : s.machine.memory.region? source = some region := hr.symm
        refine ⟨⟨hs.layout, h s.machine queued hs.machine ?_ ?_⟩, hc⟩
        · rw [hr]
          rfl
        · rw [Memory.bytes, hr]
          exact hi
  · refine Triple.bind (Q := fun _ => At layout Q) ?_ fun _ => Triple.pure fun _ h => h
    refine Triple.bind (Q := fun _ => At layout Q) ?_ fun _ => Triple.pure fun _ h => h
    refine Triple.bind (Q := fun _ => At layout Q) ?_ fun _ => Triple.pure fun _ h => h
    refine Triple.bind
      (Q := fun channels s => (At layout Q s ∧ channel ∈ s.channels) ∧ channels = s.channels)
      (Triple.view fun s h => ⟨h, rfl⟩) fun channels => ?_
    refine Triple.require (fun s hc h => h.1.1) fun _ hc h => absurd (h.2 ▸ h.1.2) hc

theorem triple_send {channel source : String} {timeout : Duration}
    (h : ∀ m queued, P m → (m.memory.region? source).isSome →
      instructions layout (m.memory.bytes source) = .ok queued →
      Q { m with device := m.device.enqueue queued })
    (hstep : Triple Q Machine.executeNext (fun _ => Q) E) :
    Triple (At layout P) (execute [.dmaWrite channel source, .dmaWait channel timeout])
      (fun _ => At layout Q) (At layout E) :=
  triple_execute (R := fun _ => Q) (triple_applyAll_send hfail h) (fun _ => hstep) hfail

end Primitives

theorem triple_release {name : String}
    (hsome : ∀ m, P m → (m.memory.region? name).isSome = true)
    (h : ∀ m memory, P m → m.memory.dealloc name = .ok memory → Q { m with memory })
    (hstep : Triple Q Machine.executeNext (fun _ => Q) E) :
    Triple (fun s => At layout P s ∧ s.up = true) (execute [.bufferDealloc name])
      (fun _ => At layout Q) (At layout E) := by
  refine Triple.bind (Q := fun up s => up = true ∧ At layout P s)
    (Triple.view fun _ h => ⟨h.2, h.1⟩) fun up => Triple.assume fun hup => ?_
  refine Triple.bind (Q := fun _ => At layout P)
    (Triple.require (fun _ _ h => h) fun _ hn _ => absurd hup hn) fun _ => ?_
  refine triple_count.bind fun _ => ?_
  refine Triple.bind (Q := fun _ => At layout Q)
    (triple_applyAll_singleton (triple_apply_dealloc h fun s hs hn => ?_)) fun _ =>
      (triple_stepDevice hstep).bind fun _ => Triple.pure fun _ h => h
  have hs := hsome s.machine hs.machine
  rw [show s.machine.memory.region? name = none from hn] at hs
  cases hs

/-- A set of instances to which the counts, the buffers and the channels do not matter. -/
structure Indifferent (P : Simulator → Prop) : Prop where
  stats : ∀ s stats, P s → P { s with stats }
  memory : ∀ s memory, P s → P { s with machine := { s.machine with memory } }
  channels : ∀ s channels, P s → P { s with channels }

def Appends (P : Simulator → Prop) : Prop :=
  ∀ s queued, P s →
    P { s with machine := { s.machine with device := s.machine.device.enqueue queued } }

section Indifferent

variable {P : Simulator → Prop} (h : Indifferent P)
include h

theorem Indifferent.apply {p : Primitive}
    (hsend : ∀ channel source, p = .dmaWrite channel source → Appends P) :
    Keeps P (apply p) := by
  have hcount : ∀ f, Keeps P (count f) := fun _ => Keeps.update fun s hs => h.stats s _ hs
  have hmemory : ∀ f, Keeps P (updateMemory f) := fun _ =>
    Keeps.update fun s hs => h.memory s _ hs
  have hchannel : ∀ name, Keeps P (checkChannel name) :=
    fun _ => Keeps.bind Keeps.view fun _ => Keeps.require
  have hwindow : ∀ name offset length, Keeps P (checkWindow name offset length) :=
    fun _ _ _ => Keeps.bind Keeps.view fun _ => Keeps.ofExcept
  have hpayload : ∀ length, Keeps P (checkPayload length) :=
    fun _ => Keeps.bind Keeps.view fun _ => Keeps.require
  cases p with
  | bufferAlloc name size =>
    refine Keeps.bind Keeps.view fun _ => Keeps.bind Keeps.ofExcept fun _ => ?_
    exact Keeps.bind (hmemory _) fun _ => Keeps.pure
  | bufferDealloc name =>
    refine Keeps.bind (Keeps.bind Keeps.view fun _ => ?_) fun _ => Keeps.pure
    exact Keeps.bind Keeps.ofExcept fun _ => hmemory _
  | bufferWrite name offset data =>
    refine Keeps.bind (Keeps.bind Keeps.view fun _ => ?_) fun _ => Keeps.pure
    refine Keeps.bind (hcount _) fun _ => Keeps.bind Keeps.view fun _ => ?_
    refine Keeps.bind Keeps.require fun _ => Keeps.bind (hpayload _) fun _ => ?_
    refine Keeps.bind (hwindow _ _ _) fun _ => Keeps.bind (hmemory _) fun _ => ?_
    exact hcount _
  | bufferRead name offset length =>
    refine Keeps.bind (hpayload _) fun _ => Keeps.bind (hwindow _ _ _) fun _ => ?_
    exact Keeps.bind Keeps.view fun _ => Keeps.bind (hcount _) fun _ => Keeps.pure
  | dmaAlloc name =>
    exact Keeps.bind (Keeps.update fun s hs => h.channels s _ hs) fun _ => Keeps.pure
  | dmaWrite name source =>
    refine Keeps.bind (Keeps.bind (hchannel name) fun _ => Keeps.bind Keeps.view fun region => ?_)
      fun _ => Keeps.pure
    cases region with
    | none => exact Keeps.fail
    | some region =>
      apply Keeps.bind Keeps.view
      intro layout
      cases instructions layout region.contents.data.toList with
      | error fault => exact Keeps.fail
      | ok queued =>
        exact Keeps.bind (Keeps.update fun s hs => hsend name source rfl s queued hs)
          fun _ => hcount _
  | dmaWait name timeout => exact Keeps.bind (hchannel name) fun _ => Keeps.pure
  | dmaDealloc name =>
    exact Keeps.bind (Keeps.bind (hchannel name) fun _ =>
      Keeps.update fun s hs => h.channels s _ hs) fun _ => Keeps.pure

theorem Indifferent.applyAll {batch : Batch}
    (hsend : ∀ channel source, Primitive.dmaWrite channel source ∈ batch → Appends P) :
    Keeps P (applyAll batch) := by
  induction batch with
  | nil => exact Keeps.pure
  | cons p rest ih =>
    have hrest := ih fun channel source hm => hsend channel source (List.mem_cons_of_mem _ hm)
    refine Keeps.bind (h.apply fun channel source he => ?_) fun _ =>
      Keeps.bind hrest fun _ => Keeps.pure
    exact hsend channel source (he ▸ List.mem_cons_self ..)

end Indifferent

section Settings

variable {P : Config → Bool → Prop}

theorem keeps_settings_stepDevice : Keeps (fun s : Simulator => P s.config s.up) stepDevice := by
  refine Keeps.bind Keeps.view fun config => ?_
  split
  · exact Keeps.pure
  · refine Keeps.bind (fun s hs => ?_) fun _ => Keeps.pure
    rw [onMachine_run]
    rcases (Machine.step config.instructionsPerCall).run s.machine with ⟨_ | _, _⟩ <;> exact hs

theorem keeps_settings_accepted (batch : Batch) : Keeps (fun s : Simulator => P s.config s.up) (do
    count fun c => { c with batches := c.batches + 1 }
    let responses ← applyAll batch
    stepDevice
    return responses) := by
  refine Keeps.bind (Keeps.update fun _ h => h) fun _ => Keeps.bind ?_ fun _ =>
    Keeps.bind keeps_settings_stepDevice fun _ => Keeps.pure
  exact Indifferent.applyAll ⟨fun _ _ h => h, fun _ _ h => h, fun _ _ h => h⟩ fun _ _ _ _ _ h => h

theorem keeps_settings_execute (batch : Batch) :
    Keeps (fun s : Simulator => P s.config s.up) (execute batch) :=
  Keeps.bind Keeps.view fun _ => Keeps.bind Keeps.require fun _ => keeps_settings_accepted batch

theorem keeps_up_execute {up : Bool} (batch : Batch) :
    Keeps (fun s : Simulator => s.up = up) (execute batch) :=
  keeps_settings_execute (P := fun _ u => u = up) batch

theorem triple_up_execute {S : Simulator → Prop} (batch : Batch) :
    Triple S (execute batch) (fun _ s => s.up = true) fun _ => True := by
  refine Triple.bind (Q := fun up s => s.up = up) (Triple.view fun _ _ => rfl) fun up => ?_
  refine Triple.bind (Q := fun _ s => s.up = true) (Triple.require (fun _ hu h => h.trans hu)
    fun _ _ _ => trivial) fun _ => ?_
  exact (keeps_settings_accepted (P := fun _ up => up = true) batch).weaken (fun _ h => h)
    (fun _ _ h => h) fun _ _ => trivial

end Settings

theorem triple_payload_read {S : Simulator → Prop} {name : String} {offset length : UInt64} :
    Triple S (execute [.bufferRead name offset length])
      (fun _ s => length.toNat ≤ s.config.maxPayload) fun _ => True := by
  have hkeep : ∀ {α : Type} {a : Act α},
      Keeps (fun s : Simulator => length.toNat ≤ s.config.maxPayload) a →
        Triple (fun s : Simulator => length.toNat ≤ s.config.maxPayload) a
          (fun _ s => length.toNat ≤ s.config.maxPayload) fun _ => True :=
    fun h => h.weaken (fun _ h => h) (fun _ _ h => h) fun _ _ => trivial
  refine Triple.top.bind fun _ => Triple.top.bind fun _ => Triple.top.bind fun _ => ?_
  refine Triple.bind (triple_applyAll_singleton ?_) fun _ => hkeep (Keeps.bind
    (keeps_settings_stepDevice (P := fun config _ => length.toNat ≤ config.maxPayload))
    fun _ => Keeps.pure)
  refine Triple.bind (Q := fun _ s => length.toNat ≤ s.config.maxPayload) ?_ fun _ => hkeep ?_
  · refine Triple.bind (Q := fun limit s => s.config.maxPayload = limit)
      (Triple.view fun _ _ => rfl) fun limit => ?_
    exact Triple.require (fun _ hle h => h ▸ hle) fun _ _ _ => trivial
  · refine Keeps.bind (Keeps.bind Keeps.view fun _ => Keeps.ofExcept) fun _ => ?_
    exact Keeps.bind Keeps.view fun _ => Keeps.bind (Keeps.update fun _ h => h) fun _ => Keeps.pure

/-- A unit that has nothing to do, or does not do it. -/
def Still (s : Simulator) : Prop :=
  s.config.stall = true ∨ s.machine.device.queue = []

theorem stepDevice_run_still {s : Simulator} (h : s.Still) : stepDevice.run s = (.ok (), s) := by
  rw [stepDevice, Action.bind_run, Action.view_run]
  simp only
  split
  · rfl
  · have hstep := Machine.step_of_empty (h.resolve_left ‹_›) s.config.instructionsPerCall
    rw [Action.bind_run, onMachine_run, hstep]
    rfl

/-- An instance that is up and whose unit stands still. -/
structure Resting (limit : Nat) (m : Machine) (s : Simulator) : Prop where
  up : s.up = true
  payload : s.config.maxPayload = limit
  machine : s.machine = m
  still : s.config.stall = true ∨ m.device.queue = []

section Resting

variable {limit : Nat} {m : Machine} {name : String} {offset length : UInt64}

theorem triple_count_resting {f : Stats → Stats} {F : Simulator → Prop} :
    Triple (Resting limit m) (count f) (fun _ => Resting limit m) F :=
  Triple.update fun _ h => ⟨h.up, h.payload, h.machine, h.still⟩

theorem Resting.stands {s : Simulator} (h : Resting limit m s) : s.Still := by
  rw [Still, h.machine]
  exact h.still

theorem triple_stepDevice_resting :
    Triple (Resting limit m) stepDevice (fun _ => Resting limit m) fun _ => False := by
  intro s hs
  rw [stepDevice_run_still hs.stands]
  exact hs

theorem triple_read_resting (hp : length.toNat ≤ limit)
    (hw : m.memory.checkWindow name offset length = .ok ()) :
    Triple (Resting limit m) (execute [.bufferRead name offset length])
      (fun rs s => rs = [.data (m.memory.read name offset length)] ∧ Resting limit m s)
      fun _ => False := by
  refine Triple.bind (Q := fun up s => up = true ∧ Resting limit m s)
    (Triple.view fun _ h => ⟨h.up, h⟩) fun up => Triple.assume fun hup => ?_
  refine Triple.bind (Q := fun _ => Resting limit m)
    (Triple.require (fun _ _ h => h) fun _ hn _ => hn hup) fun _ =>
      triple_count_resting.bind fun _ => ?_
  refine Triple.bind (Q := fun rs s => rs = [.data (m.memory.read name offset length)] ∧
    Resting limit m s) (triple_applyAll_singleton ?_) fun rs => Triple.assume fun hrs =>
      triple_stepDevice_resting.bind fun _ => Triple.pure fun _ h => ⟨hrs, h⟩
  refine Triple.bind (Q := fun _ => Resting limit m) ?_ fun _ => ?_
  · refine Triple.bind (Q := fun l s => l = limit ∧ Resting limit m s)
      (Triple.view fun _ h => ⟨h.payload, h⟩) fun l => Triple.assume fun hl => ?_
    exact Triple.require (fun _ _ h => h) fun _ hn _ => hn (hl ▸ hp)
  refine Triple.bind (Q := fun _ => Resting limit m) ?_ fun _ => ?_
  · refine Triple.bind (Q := fun r s => r = .ok () ∧ Resting limit m s)
      (Triple.view fun s h => ⟨?_, h⟩) fun r => Triple.assume fun hr => ?_
    · rw [memory, h.machine, hw]
    · subst hr
      exact fun _ h => h
  refine Triple.bind (Q := fun data s => data = m.memory.read name offset length ∧
    Resting limit m s) (Triple.view fun s h => ⟨?_, h⟩) fun data => Triple.assume fun hd => ?_
  · rw [memory, h.machine]
  · exact triple_count_resting.bind fun _ => Triple.pure fun _ h => ⟨hd ▸ rfl, h⟩

end Resting

theorem raises_alloc {name : String} {size : UInt64} :
    Raises (fun s => s.memory.region? name = none)
      (fun e t => (t.memory.region? name = none ∧ e ≠ .bufferExists name) ∨
        ∃ fault, e = .device fault)
      (execute [.bufferAlloc name size]) := by
  have hstep : Raises (fun _ => True)
      (fun e (t : Simulator) => (t.memory.region? name = none ∧ e ≠ .bufferExists name) ∨
        ∃ fault, e = .device fault) stepDevice := by
    refine Raises.view fun s _ => ?_
    split
    · exact Raises.pure
    · refine Raises.next (fun t e u _ hr => ?_) fun _ => Raises.pure
      rw [onMachine_run] at hr
      split at hr
      · cases hr
      · cases hr
        exact .inr ⟨_, rfl⟩
  have hall : Raises (fun s => s.memory.region? name = none)
      (fun e t => (t.memory.region? name = none ∧ e ≠ .bufferExists name) ∨
        ∃ fault, e = .device fault) (applyAll [.bufferAlloc name size]) := by
    refine Raises.next (Raises.view fun s hs => ?_) fun _ => Raises.pure
    refine Raises.next (Raises.ofExcept fun e t he h => .inl ⟨h, ?_⟩) fun _ _ _ _ _ h => nomatch h
    rintro rfl
    rw [Memory.alloc, if_neg (by rw [hs]; exact Bool.false_ne_true)] at he
    split at he
    · cases he
    · split at he <;> cases he
  refine Raises.view fun s _ => Raises.bind (Q := fun _ s => s.memory.region? name = none)
    (Triple.require (fun _ _ h => h) fun _ _ h => h)
    (Raises.require fun _ h => .inl ⟨h, fun he => nomatch he⟩) fun _ => ?_
  refine Raises.bind (Q := fun _ s => s.memory.region? name = none) (F := fun _ => True)
    (Triple.update fun _ h => h) (fun _ _ _ _ h => nomatch h) fun _ => ?_
  exact hall.next fun _ => hstep.next fun _ => Raises.pure

end Simulator

section Streams

variable {layout : Tcu.Layout}

theorem Simulator.instructions_append (hs : 0 < layout.instructionBytes) {a b : List UInt8}
    (ha : a.length % layout.instructionBytes = 0) {queued : List Tcu.Instruction}
    (h : instructions layout (a ++ b) = .ok queued) :
    ∃ x y, instructions layout a = .ok x ∧ instructions layout b = .ok y ∧ queued = x ++ y := by
  unfold instructions at h ⊢
  split at h
  · cases h
  · rename_i hm
    have hb : b.length % layout.instructionBytes = 0 := by
      rw [List.length_append, Nat.add_mod, ha, Nat.zero_add, Nat.mod_mod] at hm
      exact Decidable.not_not.mp hm
    rw [if_neg (Decidable.not_not.mpr ha), if_neg (Decidable.not_not.mpr hb)]
    rw [Bytes.words_append hs ha, List.mapM_append] at h
    cases hx : (Bytes.words layout.instructionBytes a).mapM (Tcu.decode layout) with
    | error e => rw [hx] at h; cases h
    | ok x =>
      cases hy : (Bytes.words layout.instructionBytes b).mapM (Tcu.decode layout) with
      | error e => rw [hx, hy] at h; cases h
      | ok y =>
        rw [hx, hy] at h
        cases h
        exact ⟨x, y, rfl, rfl, rfl⟩

theorem Simulator.instructions_assemble (hl : layout.Whole) {program : List Tcu.Instruction}
    {stream : List UInt8} (h : Tcu.assemble layout program = .ok stream) :
    instructions layout stream = .ok program ∧
      stream.length % layout.instructionBytes = 0 := by
  obtain ⟨hn, hd⟩ := Tcu.decode_assemble hl h
  have hm : stream.length % layout.instructionBytes = 0 := by
    rw [hn, Nat.mul_mod_left]
  rw [instructions, if_neg (Decidable.not_not.mpr hm), hd]
  exact ⟨rfl, hm⟩

theorem Simulator.length_instructions {stream : List UInt8} {queued : List Tcu.Instruction}
    (h : instructions layout stream = .ok queued) :
    queued.length = stream.length / layout.instructionBytes := by
  unfold instructions at h
  split at h
  · cases h
  · cases hq : (Bytes.words layout.instructionBytes stream).mapM (Tcu.decode layout) with
    | error e => rw [hq] at h; cases h
    | ok program =>
      rw [hq] at h
      cases h
      rw [← Bytes.length_words]
      exact length_mapM hq

end Streams

section Sent

variable {α : Type} {P E : Simulator → Prop} {R : α → Simulator → Prop}

theorem through_run (a : Action Simulator RemoteError α) (w : Switch Simulator) :
    (Switch.through a).run w = ((a.run w.remote).1, { w with remote := (a.run w.remote).2 }) := by
  simp only [Switch.through, Action.run]

theorem record_run (w : Switch Simulator) (batch : Batch) :
    (Switch.record batch).run w = (.ok (w.plan.calls.lookup w.call),
      { w with call := w.call + 1, log := batch :: w.log }) :=
  rfl

theorem triple_through {a : Action Simulator RemoteError α} (h : Triple P a R E) :
    Triple (fun w => P w.remote) (Switch.through a) (fun x w => R x w.remote)
      fun w => E w.remote := by
  intro w hw
  have hs := h w.remote hw
  rw [through_run]
  cases hr : a.run w.remote with
  | mk r remote =>
    rw [hr] at hs
    cases r <;> exact hs

/-- Whatever the plan makes of a call, one that succeeds has reached the instance, and one that
fails has reached it or left it alone. -/
theorem triple_sent {batch : Batch} {R : Simulator → Prop}
    (h : Triple P (Simulator.execute batch) (fun _ => R) E) :
    Triple (fun w => P w.remote) (Service.execute batch : Action (Switch Simulator) RemoteError _)
      (fun _ w => R w.remote) fun w => P w.remote ∨ E w.remote := by
  change Triple _ (Switch.send batch) _ _
  have hrecord : Triple (fun w => P w.remote) (Switch.record batch) (fun _ w => P w.remote)
      fun w => P w.remote ∨ E w.remote := by
    intro w hw
    rw [record_run]
    exact hw
  refine hrecord.bind fun (interference : Option Interference) => ?_
  have hcall : Triple (fun w => P w.remote) (Switch.through (Simulator.execute batch))
      (fun _ w => R w.remote) fun w => P w.remote ∨ E w.remote :=
    (triple_through h).weaken (fun _ hw => hw) (fun _ _ hw => hw) fun _ hw => .inr hw
  cases interference with
  | none => exact hcall
  | some i =>
    cases i with
    | fail error => exact Triple.fail fun _ hw => .inl hw
    | answer responses => exact hcall.bind fun _ => Triple.pure fun _ hw => hw

end Sent

/-- All that the plan does is to make calls fail. -/
def OnlyFails (plan : FaultPlan) : Prop :=
  ∀ c ∈ plan.calls, ∃ error, c.2 = .fail error

theorem OnlyFails.fails {plan : FaultPlan} (h : OnlyFails plan) {call : Nat}
    {interference : Interference} (hc : plan.calls.lookup call = some interference) :
    ∃ error, interference = .fail error := by
  obtain ⟨before, after, hl, _⟩ := List.lookup_eq_some_iff.mp hc
  exact h (call, interference) (by rw [hl]; exact List.mem_append_right _ (List.mem_cons_self ..))

/-- The instance behind a switch that makes calls fail and does nothing else. -/
structure On (layout : Tcu.Layout) (P : Machine → Prop) (w : Switch Simulator) : Prop where
  plan : OnlyFails w.plan
  remote : Simulator.At layout P w.remote

namespace On

variable {layout : Tcu.Layout} {P Q E : Machine → Prop}

theorem mono {w : Switch Simulator} (h : On layout P w) (hp : ∀ m, P m → Q m) : On layout Q w :=
  ⟨h.plan, h.remote.mono hp⟩

theorem of_and {p : Prop} {w : Switch Simulator} (h : On layout (fun m => p ∧ P m) w) :
    p ∧ On layout P w :=
  ⟨h.remote.machine.1, h.plan, h.remote.layout, h.remote.machine.2⟩

theorem send_run_none {w : Switch Simulator} {batch : Batch}
    (h : w.plan.calls.lookup w.call = none) :
    (Switch.send batch).run w =
      (((Simulator.execute batch).run w.remote).1,
        { w with
          remote := ((Simulator.execute batch).run w.remote).2
          call := w.call + 1
          log := batch :: w.log }) := by
  rw [Switch.send, Action.bind_run, record_run, h]
  rfl

theorem send_run_fail {w : Switch Simulator} {batch : Batch} {error : RemoteError}
    (h : w.plan.calls.lookup w.call = some (.fail error)) :
    (Switch.send batch).run w =
      (.error error, { w with call := w.call + 1, log := batch :: w.log }) := by
  rw [Switch.send, Action.bind_run, record_run, h]
  rfl

theorem triple_send {batch : Batch} {R : List Response → Machine → Prop}
    (h : Triple (Simulator.At layout P) (Simulator.execute batch)
      (fun rs => Simulator.At layout (R rs)) (Simulator.At layout E)) (hfail : ∀ m, P m → E m) :
    Triple (On layout P) (Service.execute batch : Action (Switch Simulator) RemoteError _)
      (fun rs => On layout (R rs)) (On layout E) := by
  change Triple _ (Switch.send batch) _ _
  intro w hw
  cases hc : w.plan.calls.lookup w.call with
  | none =>
    have hs := h w.remote hw.remote
    rw [send_run_none hc]
    cases hr : (Simulator.execute batch).run w.remote with
    | mk r remote =>
      rw [hr] at hs
      cases r with
      | ok rs => exact ⟨hw.plan, hs⟩
      | error e => exact ⟨hw.plan, hs⟩
  | some interference =>
    obtain ⟨error, rfl⟩ := hw.plan.fails hc
    rw [send_run_fail hc]
    exact ⟨hw.plan, hw.remote.mono hfail⟩

theorem triple_down (h : ∀ m, P m → Q ⟨m.device.reset, m.memory.clear⟩) :
    Triple (On layout P) (Service.down : Action (Switch Simulator) RemoteError Unit)
      (fun _ => On layout Q) (On layout P) := by
  change Triple _ (Switch.refusable FaultPlan.down Service.down) _ _
  refine Triple.bind (Q := fun _ => On layout P) (Triple.view fun _ h => h)
    fun (refusal : Option RemoteError) => ?_
  cases refusal with
  | some error => exact Triple.fail fun _ h => h
  | none => exact fun w hw => ⟨hw.plan, hw.remote.layout, h _ hw.remote.machine⟩

end On

end TensorUnit.Sim
