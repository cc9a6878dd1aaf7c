import TensorUnit.Proofs.Host.Trust

namespace TensorUnit.Host

open TensorUnit.Action (Triple Keeps KeepsOr)
open Remote Sim
open Tcu (Instruction)

namespace Driver

/-- An operation whose caller leaves the target row alone and the unit aimed, and sends no probe of
his own. -/
structure Discreet (d : Driver) (op : Operation) : Prop where
  target : d.LeavesAlone op d.target
  supplied : ∀ instr, d.Supplies op instr →
    ¬ WritesDram0 instr d.target ∧ ¬ ConfiguresBank instr ∧ instr ∉ d.probe.instructions

/-- Behind every first move of a probe there is one that writes the target row. -/
def Paired (d : Driver) (m : Machine) : Prop :=
  ∀ rest, d.fetch :: rest <:+ m.device.queue → ∃ instr ∈ rest, WritesDram0 instr d.target

/-- Unless a buffer was left behind, no probe is queued of which the driver does not know. -/
def Muted (d : Driver) (m : Machine) : Prop :=
  m.memory.region? d.config.stagingBuffer = none → d.probe.outstanding = false →
    ∀ instr ∈ d.probe.instructions, instr ∉ m.device.queue

variable {d : Driver} {m t : Machine} {op : Operation}

theorem Discreet.considerate (h : d.Discreet op) : d.Considerate op :=
  ⟨h.target, fun instr hi => ⟨(h.supplied instr hi).1, (h.supplied instr hi).2.1⟩⟩

theorem Discreet.part (hd : d.Sound) (hp : d.Placed) {part : Operation} (h : d.Discreet op)
    (hpart : d.Makes op part) : d.Discreet part := by
  have hc := h.considerate.part hd hp hpart
  refine ⟨hc.target, fun instr hi => ⟨(hc.supplied instr hi).1, (hc.supplied instr hi).2, ?_⟩⟩
  rcases hpart.supplies hd hi with hi | ⟨base, size, _, _, _, rfl⟩
  · exact (h.supplied instr hi).2.2
  · intro hmem
    rcases List.mem_cons.mp hmem with he | hmem
    · cases he
    · cases List.mem_singleton.mp hmem

theorem Paired.suffix (h : d.Paired m) (hq : t.device.queue <:+ m.device.queue) : d.Paired t :=
  fun rest hr => h rest (hr.trans hq)

theorem Paired.append (h : d.Paired m) {queued : List Instruction} (hf : d.fetch ∉ queued) :
    d.Paired { m with device := m.device.enqueue queued } := by
  rintro rest ⟨before, he⟩
  rcases List.append_eq_append_iff.mp he with ⟨middle, hm, hr⟩ | ⟨middle, hm, hr⟩
  · cases middle with
    | nil =>
      rw [List.nil_append] at hr
      exact absurd (hr ▸ List.mem_cons_self ..) hf
    | cons first middle =>
      obtain ⟨rfl, rfl⟩ := List.cons.inj hr
      obtain ⟨instr, hi, hw⟩ := h middle ⟨before, hm.symm⟩
      exact ⟨instr, List.mem_append_left _ hi, hw⟩
  · refine absurd ?_ hf
    rw [hr]
    exact List.mem_append_right _ (List.mem_cons_self ..)

theorem paired_probe {queue : List Instruction}
    (hq : m.device.queue = queue ++ d.probe.instructions) : d.Paired m := by
  rintro rest ⟨before, he⟩
  have he : before ++ d.fetch :: rest = queue ++ [d.fetch] ++ [d.carry] := by
    rw [he, hq, List.append_assoc]
    rfl
  rcases List.eq_nil_or_concat rest with rfl | ⟨init, last, rfl⟩
  · cases (List.append_inj' he rfl).2
  · rw [List.concat_eq_append, ← List.cons_append, ← List.append_assoc] at he
    obtain rfl := List.singleton_inj.mp (List.append_inj' he rfl).2
    refine ⟨d.carry, ?_, writesDram0_carry⟩
    rw [List.concat_eq_append]
    exact List.mem_append_right _ (List.mem_singleton_self _)

theorem Muted.suffix (h : d.Muted m) (hm : t.memory.region? d.config.stagingBuffer = none →
      m.memory.region? d.config.stagingBuffer = none)
    (hq : t.device.queue <:+ m.device.queue) : d.Muted t :=
  fun hs ho instr hi hmem => h (hm hs) ho instr hi (hq.subset hmem)

/-- When no probe is under way nothing queued writes the target row, so that neither move of a probe
is queued. -/
theorem Paired.muted (h : d.Paired m) (hg : d.Good m) : d.Muted m := by
  intro hs ho instr hi hmem
  obtain ⟨_, left, hl, htail⟩ := hg
  rw [hs] at hl
  have hsettled : d.Settled m := by
    have ht := htail hl.symm
    rwa [Tail, ho, if_neg Bool.false_ne_true] at ht
  have hfetch : d.fetch ∉ m.device.queue := by
    intro hf
    obtain ⟨before, rest, he⟩ := List.append_of_mem hf
    obtain ⟨instr, hi, hw⟩ := h rest ⟨before, he.symm⟩
    refine hsettled instr ?_ hw
    rw [he]
    exact List.mem_append_right _ (List.mem_cons_of_mem _ hi)
  rcases List.mem_cons.mp hi with rfl | hi
  · exact hfetch hmem
  · rw [List.mem_singleton.mp hi] at hmem
    exact hsettled _ hmem (writesDram0_carry)

end Driver

section Machines

variable {d : Driver}

theorem triple_suffix {queue : List Instruction} :
    Keeps (fun m : Machine => m.device.queue <:+ queue) Machine.executeNext := by
  apply Machine.triple_executeNext
  · exact fun _ h _ => h
  · intro m instr rest t h hq hr
    have hk := Machine.kept_execute instr (m.withQueue rest)
    rw [hr] at hk
    change t.device.queue <:+ queue
    rw [hk.queue]
    rw [hq] at h
    exact (List.suffix_cons ..).trans h
  · exact fun _ _ _ _ _ _ _ _ => List.nil_suffix

theorem keeps_of_suffix {P : Machine → Prop} (h : ∀ m t, P m →
      (t.memory.region? d.config.stagingBuffer).isSome =
        (m.memory.region? d.config.stagingBuffer).isSome →
      t.device.queue <:+ m.device.queue → P t) : Keeps P Machine.executeNext := by
  refine Triple.strengthen (P := fun m => ∃ s, P s ∧
    (m.memory.region? d.config.stagingBuffer).isSome =
    (s.memory.region? d.config.stagingBuffer).isSome ∧ m.device.queue <:+ s.device.queue) ?_ ?_
  · refine Triple.exists fun s => Triple.assume fun hs => ?_
    exact (Triple.and Banks.keeps_isSome triple_suffix).weaken (fun _ h => h)
      (fun _ t ht => h s t hs ht.1 ht.2) fun t ht => h s t hs ht.1 ht.2
  · exact fun m hm => ⟨m, hm, rfl, List.suffix_refl _⟩

theorem keeps_muted : Keeps d.Muted Machine.executeNext := by
  refine keeps_of_suffix (d := d) fun m t h hs hq => h.suffix (fun hn => ?_) hq
  rw [hn] at hs
  exact Option.isNone_iff_eq_none.mp (Option.not_isSome .. ▸ congrArg not hs.symm)

def Driver.Aligned (d : Driver) (m : Machine) : Prop :=
  d.banks.Ready m ∧ d.Paired m

theorem Driver.Aligned.send {program : List Instruction} {m : Machine} (h : d.Aligned m)
    (hp : ∀ instr ∈ program, ¬ ConfiguresBank instr)
    (hpair : d.Paired { m with device := m.device.enqueue program }) :
    d.Aligned { m with device := m.device.enqueue program } :=
  ⟨⟨⟨h.1.hold.arch, h.1.hold.cells, h.1.hold.apart, h.1.hold.extents⟩, h.1.aimed.append hp⟩, hpair⟩

variable (hd : d.Sound)
include hd

theorem keeps_aligned : Keeps d.Aligned Machine.executeNext := by
  refine (Banks.steady_ready hd.fit).step ?_ ?_
  · intro m instr t _ hp hq _ _
    exact hp.suffix (hq ▸ List.suffix_cons ..)
  · intro m instr t _ hp _ hq _
    exact hp.suffix (hq ▸ List.nil_suffix)

theorem keeps_aligned_dmaWrite {stream : List UInt8}
    (hsend : ∀ m queued, d.Aligned m → Simulator.instructions d.layout stream = .ok queued →
      d.Aligned { m with device := m.device.enqueue queued }) :
    Keeps (Driving.Over d (Sim.On d.layout d.Aligned)) (Driving.dmaWrite stream) :=
  Driving.keeps_dmaWrite_ready hd (fun _ h => h.1) (keeps_aligned hd)
    (fun m memory h ha hb =>
      ⟨Banks.indifferent_ready m memory h.1 (h.1.hold.beside hd.staging ha hb), h.2⟩) hsend

theorem keeps_aligned_simple {op : Operation} (h : d.Discreet op) (hs : op.Simple) :
    KeepsOr (Driving.Over d (Sim.On d.layout d.Aligned)) (fun _ _ => False)
      (Driving.perform op) := by
  refine Driving.keepsOr_simple (fun bank => ?_)
    (fun bank => (readable_on (keeps_aligned hd)).loadable fun _ h => h) hs
    (fun stream he => ?_) fun stream probe he hm hp => ?_
  · exact (writable_on (keeps_aligned hd) fun m offset data h =>
      ⟨Banks.indifferent_ready _ _ h.1 (h.1.hold.write ..), h.2⟩).storable fun _ h => h
  · subst he
    refine (keeps_aligned_dmaWrite hd fun m queued hm hq => hm.send (fun instr hi => ?_)
      (hm.2.append fun hf => ?_)).or
    · exact (h.supplied instr ⟨queued, hq, hi⟩).2.1
    · exact (h.supplied d.fetch ⟨queued, hq, hf⟩).2.2 (List.mem_cons_self ..)
  · subst he
    refine (keeps_aligned_dmaWrite hd fun m queued hm' hq => ?_).or
    obtain ⟨program, hprog, rfl⟩ := instructions_probe hd hm hp hq
    refine hm'.send (fun instr hi => ?_) (Driver.paired_probe
      (List.append_assoc m.device.queue program _).symm)
    exact (List.mem_append.mp hi).elim (fun hi => (h.supplied instr ⟨program, hprog, hi⟩).2.1)
      (not_configuresBank_probe instr)

end Machines

def Driving.Trusted (h : Driving (Switch Simulator)) : Prop :=
  h.Standing fun d m => d.Good m ∧ d.Paired m

namespace Driving

variable {h : Driving (Switch Simulator)}

theorem Trusted.muted (ht : h.Trusted) : h.driver.Muted h.machine :=
  ht.on.remote.remote.machine.2.muted ht.on.remote.remote.machine.1

/-- Both sides of trust are kept by the same simple operations. -/
theorem keeps_trusted_simple {d : Driver} (hd : d.Sound) {op : Operation} (ho : d.Discreet op)
    (hs : op.Simple) :
    KeepsOr (OnAny d fun d m => d.Good m ∧ d.Paired m) (fun _ _ => False) (perform op) := by
  rintro h ⟨generation, outstanding, hon⟩
  refine .inl ?_
  obtain ⟨g, o, hgood⟩ : OnAny d Driver.Good (h.after op) :=
    (keepsOr_good_simple hd ho.considerate hs).keeps.state
      ⟨generation, outstanding, hon.mono fun _ h => h.1⟩
  have haligned : Over d (Sim.On d.layout d.Aligned) (h.after op) :=
    (keeps_aligned_simple hd ho hs).keeps.state
      ⟨⟨generation, outstanding, hon.driver⟩, hon.remote.mono fun _ h => ⟨h.1.1, h.2⟩⟩
  exact ⟨g, o, hgood.driver, hgood.remote.plan, hgood.remote.remote.layout,
    hgood.remote.remote.machine, haligned.2.remote.machine.2⟩

theorem Trusted.after (ht : h.Trusted) {op : Operation} (ho : h.driver.Discreet op)
    (hop : op ≠ .close) : (h.after op).Trusted :=
  (Standing.after ht (fun _ h => h) ht.on.any (fun _ _ ha hm => ha.part ht.sound ht.placed hm)
    (fun _ hs ha => keeps_trusted_simple ht.sound ha hs) (fun _ _ _ hk => hk) ho hop).elim id
    fun ⟨_, _, hf⟩ => hf.elim

theorem Trusted.close (ht : h.Trusted) :
    (h.after .close).Closed ∧ (h.after .close).driver.Muted (h.after .close).machine := by
  have hdown : Keeps (Sim.On h.driver.layout h.driver.Muted)
      (down : Action (Switch Simulator) RemoteError Unit) :=
    On.triple_down fun m _ _ _ instr _ hi => nomatch hi
  have hreleases : ∀ p ∈ releases h.driver.config, Keeps (Sim.On h.driver.layout h.driver.Muted)
      (execute [p] : Action (Switch Simulator) RemoteError _) :=
    keeps_releases keeps_muted ht.sound fun m memory name hm hn hmem => hm.suffix (fun hs => by
      rwa [Memory.region?_dealloc hmem, if_neg hn.symm] at hs) (List.suffix_refl _)
  obtain ⟨⟨loaded, he⟩, hon⟩ := (triple_close hdown hreleases).state (s := h)
    ⟨rfl, ht.on.remote.plan, ht.on.remote.remote.layout, ht.muted⟩
  refine ⟨congrArg Driver.closed he, ?_⟩
  change (((perform .close).run h).2.driver).Muted _
  rw [show ((perform .close).run h).2.driver = _ from he]
  exact hon.remote.machine

end Driving

/-- Discreet operations leave a driver that can be trusted, or one that has been closed. -/
theorem Reached.tracked {h : Driving (Switch Simulator)} (hr : Reached Driver.Discreet h) :
    h.Trusted ∨ h.Closed ∧ h.driver.Muted h.machine := by
  induction hr with
  | new sim_ok fails new_ok =>
    obtain ⟨hd, _, _, _, hl, hon⟩ := triple_new.ok ⟨fails, blank_ofArchitecture sim_ok⟩ new_ok
    refine .inl ⟨hd, fun loaded he => ?_, hon.mono fun m hm => ?_⟩
    · rw [hl] at he
      cases he
    · have hq := hm.2.2 rfl
      refine ⟨⟨hm.1, false, hm.2.mono Driver.tail_of_empty⟩, fun rest hs => ?_⟩
      rw [hq] at hs
      cases List.suffix_nil.mp hs
  | @perform h op _ allowed ih =>
    rcases ih with ht | hc
    · by_cases hop : op = .close
      · subst hop
        exact .inr ht.close
      · exact .inl (ht.after allowed hop)
    · rw [Driving.after_closed hc.1]
      exact .inr hc
  | tune stall instructionsPerCall failBufferWriteAt _ ih =>
    exact ih.imp (·.tune ..) id
  | replan fails clock _ ih =>
    exact ih.imp (·.replan fails clock) id

/-- Unless a staging buffer was left behind, a move of a probe is only queued while the driver takes
a probe to be under way, and it will then not be armed again. -/
theorem probe_tracked {h : Driving (Switch Simulator)} (hr : Reached Driver.Discreet h)
    (hs : h.machine.memory.region? h.driver.config.stagingBuffer = none) {instr : Instruction}
    (hi : instr ∈ h.driver.probe.instructions) (hq : instr ∈ h.device.queue) :
    h.driver.probe.outstanding = true ∧ ∀ m : Mem,
      (Probing.arm m).run ⟨h.driver.probe, h.remote⟩ =
        (.error (.configuration .rearmed), ⟨h.driver.probe, h.remote⟩) := by
  have hm : h.driver.Muted h.machine := hr.tracked.elim Driving.Trusted.muted And.right
  have ho : h.driver.probe.outstanding = true := by
    by_contra hf
    exact hm hs (Bool.not_eq_true _ ▸ hf) instr hi hq
  exact ⟨ho, fun _ => Probing.arm_run_outstanding ho⟩

section Small

theorem discreet_flush (d : Driver) : d.Discreet .flush :=
  ⟨fun _ hi => hi.elim, fun _ hi => hi.elim⟩

def unflushed (h : Driving (Switch Simulator)) : Driving (Switch Simulator) :=
  (h.tune true none none).after .flush

theorem probe_tracked_unflushed :
    ∃ h : Driving (Switch Simulator), Reached Driver.Discreet h ∧
      h.machine.memory.region? h.driver.config.stagingBuffer = none ∧
      h.driver.carry ∈ h.driver.probe.instructions ∧ h.driver.carry ∈ h.device.queue ∧
      h.driver.probe.outstanding = true ∧ ∀ m : Mem,
        (Probing.arm m).run ⟨h.driver.probe, h.remote⟩ =
          (.error (.configuration .rearmed), ⟨h.driver.probe, h.remote⟩) := by
  obtain ⟨start, hs⟩ := exists_smallStart
  have hfacts : ∀ h ∈ smallStart,
      (unflushed h).machine.memory.region? (unflushed h).driver.config.stagingBuffer = none ∧
      (unflushed h).driver.carry ∈ (unflushed h).driver.probe.instructions ∧
      (unflushed h).driver.carry ∈ (unflushed h).device.queue := by decide +kernel
  obtain ⟨hnone, hi, hq⟩ := hfacts start hs
  have hr : Reached Driver.Discreet (unflushed start) :=
    .perform (.tune _ _ _ (reached_smallStart hs)) (discreet_flush _)
  exact ⟨_, hr, hnone, hi, hq, probe_tracked hr hnone hi hq⟩

def unreleased (h : Driving (Switch Simulator)) : Driving (Switch Simulator) :=
  ((h.tune true none none).replan ⟨[(5, .fail (.transport (.other "")))], none, none⟩ .steady).after
    .flush

/-- A driver that cannot release its buffer forgets the probe that it has just sent. -/
theorem probe_untracked :
    ∃ h : Driving (Switch Simulator), Reached Driver.Discreet h ∧ h.driver.closed = false ∧
      h.driver.carry ∈ h.driver.probe.instructions ∧ h.driver.carry ∈ h.device.queue ∧
      h.driver.probe.outstanding = false := by
  obtain ⟨start, hs⟩ := exists_smallStart
  have hfacts : ∀ h ∈ smallStart, (unreleased h).driver.closed = false ∧
      (unreleased h).driver.carry ∈ (unreleased h).driver.probe.instructions ∧
      (unreleased h).driver.carry ∈ (unreleased h).device.queue ∧
      (unreleased h).driver.probe.outstanding = false := by decide +kernel
  have hfails : OnlyFails ⟨[(5, .fail (.transport (.other "")))], none, none⟩ := by
    intro c hc
    rw [List.mem_singleton.mp hc]
    exact ⟨_, rfl⟩
  exact ⟨_, .perform (.replan hfails _ (.tune _ _ _ (reached_smallStart hs))) (discreet_flush _),
    hfacts start hs⟩

end Small

end TensorUnit.Host
