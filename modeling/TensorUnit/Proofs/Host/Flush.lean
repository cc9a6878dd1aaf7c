import TensorUnit.Proofs.Host.Probe

namespace TensorUnit.Host

open TensorUnit.Action (Triple Keeps)
open Remote Sim
open Tcu (Instruction)

namespace Driving

variable {d : Driver} {P : Machine → Prop} {α : Type}

theorem onProbe_run {σ : Type} (a : Probing.Act σ α) (h : Driving σ) :
    (onProbe a).run h =
      ((a.run ⟨h.driver.probe, h.remote⟩).1,
        ⟨{ h.driver with probe := (a.run ⟨h.driver.probe, h.remote⟩).2.probe },
          (a.run ⟨h.driver.probe, h.remote⟩).2.remote⟩) := by
  cases h
  rfl

def Around (d : Driver) (Q : Probing (Switch Simulator) → Prop) (h : Driving (Switch Simulator)) :
    Prop :=
  ∃ probe, h.driver = { d with probe } ∧ Q ⟨probe, h.remote⟩

theorem triple_probeWith {a : Probing.Act (Switch Simulator) α} {P : Switch Simulator → Prop}
    {Q : α → Probing (Switch Simulator) → Prop} {E : Probing (Switch Simulator) → Prop}
    (h : Triple (Probing.With d P) a Q E) :
    Triple (With d P) (onProbe a) (fun x => Around d (Q x)) (Around d E) := by
  intro s hs
  have hr := h ⟨s.driver.probe, s.remote⟩ ⟨by rw [hs.1], hs.2⟩
  rw [onProbe_run]
  cases ha : a.run ⟨s.driver.probe, s.remote⟩ with
  | mk r t =>
    rw [ha] at hr
    have hdriver : { s.driver with probe := t.probe } = { d with probe := t.probe } := by
      rw [hs.1]
    cases r with
    | ok x => exact ⟨t.probe, hdriver, hr⟩
    | error e => exact ⟨t.probe, hdriver, hr⟩

theorem triple_onProbe {a : Probing.Act (Switch Simulator) α}
    {Q : α → Probing (Switch Simulator) → Prop} {E : Probing (Switch Simulator) → Prop}
    (h : Triple (Probing.On d P) a Q E) :
    Triple (On d P) (onProbe a) (fun x => Around d (Q x)) (Around d E) :=
  (triple_probeWith (h.strengthen fun _ hs => ⟨hs.1, hs.2⟩)).strengthen
    fun _ hs => ⟨hs.driver, hs.remote⟩

theorem Around.with {P : Switch Simulator → Prop} {generation : Nat} {outstanding : Bool}
    {h : Driving (Switch Simulator)}
    (ha : Around d (Probing.With (d.probing generation outstanding) P) h) :
    With (d.probing generation outstanding) P h := by
  obtain ⟨probe, hd, hp⟩ := ha
  refine ⟨?_, hp.2⟩
  rw [hd, show probe = _ from hp.1]
  rfl

theorem Around.on {generation : Nat} {outstanding : Bool} {h : Driving (Switch Simulator)}
    (ha : Around d (Probing.On (d.probing generation outstanding) P) h) :
    On (d.probing generation outstanding) P h := by
  obtain ⟨probe, hd, hp⟩ := ha
  have hwith : With _ (Sim.On d.layout P) h := Around.with ⟨probe, hd, hp.1, hp.2⟩
  exact ⟨hwith.1, hwith.2⟩

def OnAny (d : Driver) (P : Driver → Machine → Prop) (h : Driving (Switch Simulator)) : Prop :=
  ∃ generation outstanding,
    On (d.probing generation outstanding) (P (d.probing generation outstanding)) h

theorem On.any {P : Driver → Machine → Prop} {h : Driving (Switch Simulator)} (ho : On d (P d) h) :
    OnAny d P h :=
  ⟨d.probe.generation, d.probe.outstanding, ho⟩

theorem triple_executeStream {σ : Type} [Service σ] {stream : List UInt8}
    {P R S T : Driving σ → Prop} {Q : Nat → Driving σ → Prop} {G : Driving σ → Prop}
    (hd : ∀ h, P h ∨ S h →
      ∃ generation outstanding, h.driver = d.probing generation outstanding)
    (hG : ∀ h, P h ∨ S h → G h)
    (hsettle : Triple P (onProbe (Probing.settle d.dram0 d.config.flush)) (fun _ => R) G)
    (harm : Triple R (onProbe (Probing.arm d.dram0)) (fun _ => S) G)
    (hsend : ∀ probe, stream.length % d.layout.instructionBytes = 0 →
      Tcu.assemble d.layout d.probe.instructions = .ok probe →
      Triple S (dmaWrite (stream ++ probe)) (fun _ => T) G)
    (hwait : Triple T (onProbe (Probing.wait d.dram0 d.config.flush)) Q G) :
    Triple P (executeStream stream) Q G := by
  have hP : ∀ h, P h → G h := fun h hp => hG h (.inl hp)
  refine Triple.bind (Q := fun _ => P) ?_ fun _ => ?_
  · exact Triple.bind (Q := fun _ => P) (Triple.view fun _ h => h) fun _ =>
      Triple.require (fun _ _ h => h) fun h _ => hP h
  refine Triple.strengthen (P := fun h => ∃ generation outstanding,
    h.driver = d.probing generation outstanding ∧ P h) (Triple.exists fun generation =>
      Triple.exists fun outstanding => ?_) fun h hp => ?_
  · refine Triple.bind (Q := fun e h => e = d.probing generation outstanding ∧ P h)
      (Triple.view fun _ h => h) fun e => Triple.assume fun he => ?_
    subst he
    refine Triple.bind (Q := fun _ h => stream.length % d.layout.instructionBytes = 0 ∧ P h)
      (Triple.require (fun _ hm h => ⟨hm, h⟩) fun h _ => hP h) fun _ => Triple.assume fun hm => ?_
    refine hsettle.bind fun _ => harm.bind fun _ => ?_
    refine Triple.bind (Q := fun probe h => Tcu.assemble d.layout d.probe.instructions = .ok probe ∧
      S h) ?_ fun probe => Triple.assume fun hp => (hsend probe hm hp).bind fun _ => hwait
    refine Triple.bind (Q := fun (e : Driver) h => e.layout = d.layout ∧ S h)
      (Triple.view fun h hs => ⟨?_, hs⟩) fun e => Triple.assume fun hlayout => ?_
    · obtain ⟨_, _, he⟩ := hd h (.inr hs)
      rw [he]
      rfl
    · refine triple_ofEncode (fun probe h hr hs => ⟨?_, hs⟩) fun h hs => hG h (.inr hs)
      rw [← hlayout]
      exact hr
  · obtain ⟨generation, outstanding, he⟩ := hd h (.inl hp)
    exact ⟨generation, outstanding, he, hp⟩

end Driving

section Target

variable {d : Driver} {m : Machine} {n : Nat} {name : String} {offset : UInt64} {data : List UInt8}

theorem Driver.Cleared.write (h : d.Cleared n m)
    (hfit : offset.toNat + data.length ≤ (m.memory.bytes name).length)
    (hout : name = d.banks.name .dram0 → ∀ i, offset.toNat ≤ i → i < offset.toNat + data.length →
      i / d.arch.rowBytes ≠ d.target.toNat) (hn : n ≤ d.arch.rowBytes) :
    d.Cleared n { m with memory := m.memory.write name offset data } := by
  intro i hlo hhi
  change ((m.memory.write name offset data).bytes _)[i]? = some 0
  rw [Memory.bytes_write hfit]
  by_cases he : d.banks.name .dram0 = name
  · have hrow : i / d.arch.rowBytes = d.target.toNat := by
      apply Nat.div_eq_of_lt_le hlo
      rw [Nat.succ_mul]
      omega
    have hrange : ¬ (offset.toNat ≤ i ∧ i < offset.toNat + data.length) :=
      fun hi => hout he.symm i hi.1 hi.2 hrow
    rw [if_pos he, getElem?_splice hfit, if_neg hrange, ← he]
    exact h i hlo hhi
  · rw [if_neg he]
    exact h i hlo hhi

theorem Driver.Cleared.fill (h : d.Cleared n m)
    (hfit : offset.toNat + data.length ≤ (m.memory.bytes (d.banks.name .dram0)).length)
    (ho : offset.toNat = d.target.toNat * d.arch.rowBytes + n) (hz : ∀ x ∈ data, x = 0) :
    d.Cleared (n + data.length)
      { m with memory := m.memory.write (d.banks.name .dram0) offset data } := by
  intro i hlo hhi
  change ((m.memory.write _ offset data).bytes _)[i]? = some 0
  rw [Memory.bytes_write hfit, if_pos rfl, getElem?_splice hfit]
  by_cases hi : offset.toNat ≤ i
  · have hlt : i - offset.toNat < data.length := by omega
    rw [if_pos (by omega), List.getElem?_eq_getElem hlt, hz _ (List.getElem_mem hlt)]
  · rw [if_neg (by omega)]
    exact h i hlo (by omega)

theorem Driver.Cleared.beside (h : d.Cleared n m) (hd : d.Sound) {memory : Memory}
    (hb : Memory.Beside d.config.stagingBuffer m.memory memory) :
    d.Cleared n { m with memory } := by
  intro i hlo hhi
  exact (congrArg (·[i]?) (hb.bytes (hd.staging .dram0))).trans (h i hlo hhi)

theorem Driver.Unless.write {J K : Machine → Prop} {left : Bool} (h : d.Unless left J m)
    (hk : J m → K { m with memory := m.memory.write name offset data }) :
    d.Unless left K { m with memory := m.memory.write name offset data } :=
  ⟨(Memory.region?_isSome_congr (Memory.extents_write ..) _).trans h.1, fun hl => hk (h.2 hl)⟩

end Target

section Arm

variable {d : Driver} {B F : Machine → Prop} {left : Bool} {c : Nat}
variable (hB : d.banks.Steady B F) (hB' : d.banks.Indifferent B)
include hB hB'

theorem fills_source {bytes : List UInt8} {offset : Nat} :
    Fills (d.banks.name .dram0) offset bytes
      (fun _ m => B m ∧ d.Unless left (fun m => d.Settled m ∧ Counts c m) m)
      (fun m => F m ∧ d.Unless left d.Settled m) where
  write _ _ _ m h _ _ _ _ _ :=
    ⟨hB' m _ h.1 ((hB.hold m h.1).write ..), h.2.write id⟩
  step _ := by
    refine (triple_unless hB (J := fun m => d.Settled m ∧ Counts c m) (E := d.Settled) ?_)
    refine (triple_settled hB (Nat.zero_le _)).weaken (fun m h => ⟨h.1, ⟨h.2.1, ?_⟩, h.2.2⟩)
      (fun _ m h => ⟨h.1, h.2.1.1, h.2.2⟩) fun _ h => h
    exact fun i hlo hhi => absurd hhi (by omega)
  stop _ m h := ⟨hB.stop m h.1, h.2.mono And.left⟩
  small _ m h := by
    have hl := (hB.hold m h.1).length_contents .dram0
    have hs := (hB.hold m h.1).size_lt
    exact hl ▸ hs

theorem fills_target {zeros : List UInt8} (hz : d.RowBytes 0 zeros) :
    Fills (d.banks.name .dram0) (d.target.toNat * d.arch.rowBytes) zeros
      (fun n m => B m ∧ d.Unless left (fun m =>
        (d.Settled m ∧ d.Cleared (min n d.arch.rowBytes) m) ∧ Counts c m) m)
      (fun m => F m ∧ d.Unless left d.Settled m) where
  write n chunk position m h hn hc ho _ hfit := by
    have hlen := hz.length
    refine ⟨hB' m _ h.1 ((hB.hold m h.1).write ..), h.2.write fun ⟨⟨hs, hcl⟩, hcount⟩ =>
      ⟨⟨hs, ?_⟩, hcount⟩⟩
    rw [Nat.min_eq_left (by omega)] at hcl ⊢
    refine hcl.fill (by omega) ho fun x hx => hz.zero x ?_
    rw [hc] at hx
    exact List.mem_of_mem_drop (List.mem_of_mem_take hx)
  step n := triple_unless hB (triple_settled hB (Nat.min_le_right ..))
  stop _ m h := ⟨hB.stop m h.1, h.2.mono fun h => h.1.1⟩
  small _ m h := by
    have hl := (hB.hold m h.1).length_contents .dram0
    have hs := (hB.hold m h.1).size_lt
    exact hl ▸ hs

theorem triple_armed (hd : d.Sound) :
    Triple (Probing.On d fun m => B m ∧ d.Unless left (fun m => d.Settled m ∧ Counts c m) m)
      (Probing.arm (d.mem .dram0))
      (fun _ => Probing.On d.next fun m => B m ∧ d.Unless left (fun m =>
        (d.Settled m ∧ d.Cleared d.arch.rowBytes m) ∧ Counts c m) m)
      (fun s => Probing.On d (fun m => F m ∧ d.Unless left d.Settled m) s ∨
        Probing.On d.next (fun m => F m ∧ d.Unless left d.Settled m) s) := by
  refine (triple_arm hd
    (I := fun _ _ m => B m ∧ d.Unless left (fun m => d.Settled m ∧ Counts c m) m)
    (J := fun _ _ n m => B m ∧ d.Unless left (fun m =>
      (d.Settled m ∧ d.Cleared (min n d.arch.rowBytes) m) ∧ Counts c m) m)
    (fun bytes _ => ⟨fills_source hB hB', fun _ h => h⟩)
    (fun bytes zeros _ hz => ⟨fills_target hB hB' hz, fun m h => ⟨h.1, h.2.mono ?_⟩⟩)
    fun m h => ⟨hB.stop m h.1, h.2.mono And.left⟩).relax fun _ s hs => hs.mono ?_
  · exact fun ⟨hs, hcount⟩ => ⟨⟨hs, fun i hlo hhi => absurd hhi (by omega)⟩, hcount⟩
  · rintro m ⟨bytes, zeros, _, hz, hb, hj⟩
    rw [hz.length, Nat.min_self] at hj
    exact ⟨hb, hj⟩

end Arm

section Send

variable {d : Driver} {B F : Machine → Prop} {c : Nat}

theorem Driver.Sound.whole (hd : d.Sound) : d.layout.Whole := by
  rw [hd.layout]
  exact Tcu.Layout.whole_ofDepths d.arch

theorem not_writesDram0_fetch {row : UInt64} : ¬ WritesDram0 d.fetch row :=
  id

theorem writesDram0_carry_iff {row : UInt64} : WritesDram0 d.carry row ↔ row = d.target :=
  writesDram0_move_iff

theorem writesDram0_carry : WritesDram0 d.carry d.target :=
  writesDram0_carry_iff.mpr rfl

theorem not_configuresBank_probe : ∀ instr ∈ d.probe.instructions, ¬ ConfiguresBank instr := by
  intro instr hi
  rcases List.mem_cons.mp hi with rfl | hi
  · exact id
  · rw [List.mem_singleton.mp hi]
    exact id

theorem append_probe_ne_nil (hd : d.Sound) {stream probe : List UInt8}
    (hp : Tcu.assemble d.layout d.probe.instructions = .ok probe) : stream ++ probe ≠ [] := by
  intro he
  have hl := (Tcu.decode_assemble hd.whole hp).1
  rw [(List.append_eq_nil_iff.mp he).2] at hl
  have hpos := hd.whole.instructionBytes_pos
  change 0 = 2 * d.layout.instructionBytes at hl
  omega

theorem instructions_probe (hd : d.Sound) {stream probe : List UInt8} {queued : List Instruction}
    (hm : stream.length % d.layout.instructionBytes = 0)
    (hp : Tcu.assemble d.layout d.probe.instructions = .ok probe)
    (hq : Simulator.instructions d.layout (stream ++ probe) = .ok queued) :
    ∃ program, Simulator.instructions d.layout stream = .ok program ∧
      queued = program ++ d.probe.instructions := by
  obtain ⟨x, y, hx, hy, rfl⟩ := Simulator.instructions_append hd.whole.instructionBytes_pos hm hq
  rw [(Simulator.instructions_assemble hd.whole hp).1] at hy
  cases hy
  exact ⟨x, hx, rfl⟩

/-- A stream for which a flush can be waited: it leaves the target row alone, and behind it the unit
still finds its banks. -/
def Flushable (d : Driver) (B : Machine → Prop) (stream : List UInt8) : Prop :=
  ∀ program, Simulator.instructions d.layout stream = .ok program →
    (∀ instr ∈ program, ¬ WritesDram0 instr d.target) ∧
      ∀ m, B m → d.banks.Ready
        { m with device := m.device.enqueue (program ++ d.probe.instructions) }

theorem submits_flush (hd : d.Sound) (hB : d.banks.Steady B F) (hB' : d.banks.Indifferent B)
    (hF : d.banks.Steady F F) (hF' : d.banks.Indifferent F) (hR : ∀ m, d.banks.Ready m → F m)
    {stream probe : List UInt8} (hm : stream.length % d.layout.instructionBytes = 0)
    (hp : Tcu.assemble d.layout d.probe.instructions = .ok probe) (hs : Flushable d B stream) :
    Driving.Submits d (stream ++ probe)
      (fun m => B m ∧ (d.Settled m ∧ d.Cleared d.arch.rowBytes m) ∧ Counts c m)
      (fun m => d.banks.Ready m ∧ d.Pending [] True m ∧
        Counts (c + stream.length / d.layout.instructionBytes + 2) m)
      (fun m => F m ∧ d.Settled m) (fun m => F m ∧ ∃ left, d.Unless left d.Settled m) where
  apart := by
    rintro m (h | h | h)
    · exact (hB.hold m h.1).apart
    · exact h.1.hold.apart
    · exact (hF.hold m h.1).apart
  beside := by
    intro m memory ha hb
    have hname := hd.staging
    refine ⟨fun ⟨h, ⟨hset, hc⟩, hcount⟩ => ?_, fun ⟨h, hpend, hcount⟩ => ?_, fun ⟨h, hset⟩ => ?_⟩
    · exact ⟨hB' m memory h ((hB.hold m h).beside hname ha hb), ⟨hset, hc.beside hd hb⟩, hcount⟩
    · exact ⟨Banks.indifferent_ready m memory h (h.hold.beside hname ha hb),
        hpend.imp id fun hw => ⟨⟨hw.1.1, hw.1.2.beside hd hb⟩, hw.2⟩, hcount⟩
    · exact ⟨hF' m memory h ((hF.hold m h).beside hname ha hb), hset⟩
  send := by
    rintro m queued ⟨h, ⟨hset, hc⟩, hcount⟩ hq
    obtain ⟨program, hprog, rfl⟩ := instructions_probe hd hm hp hq
    obtain ⟨hharm, hready⟩ := hs program hprog
    refine ⟨hready m h, .inr ⟨⟨⟨m.device.queue ++ program ++ [d.fetch], ?_, ?_⟩, hc⟩, trivial⟩, ?_⟩
    · change m.device.queue ++ (program ++ [d.fetch, d.carry]) = _
      rw [List.append_assoc, List.append_assoc]
      rfl
    · intro instr hi
      rcases List.mem_append.mp hi with hi | hi
      · exact (List.mem_append.mp hi).elim (hset instr) (hharm instr)
      · rw [List.mem_singleton.mp hi]
        exact not_writesDram0_fetch
    · change m.device.executed + (m.device.queue ++ (program ++ [d.fetch, d.carry])).length = _
      rw [List.length_append, List.length_append, Simulator.length_instructions hprog, ← hcount]
      change _ + (_ + (_ + 2)) = _
      omega
  wait _ := hB.triple_has hd.staging (triple_settled hB (Nat.le_refl _))
  work := (triple_pending ((Banks.steady_ready hd.fit).mono hR)).weaken (fun _ h => h)
    (fun _ _ h => h) fun m h => ⟨h.1, fun instr hi => by rw [h.2] at hi; cases hi⟩
  keep := triple_settled_only hF
  stop m h := ⟨hB.stop m h.1, h.2.1.1⟩
  fail m h := ⟨h.1, _, rfl, fun _ => h.2⟩
  leak m h hl := ⟨hR m h.1, true, hl, fun hf => (nomatch hf)⟩

end Send

theorem Driver.Settled.tail {d : Driver} {m : Machine} (h : d.Settled m)
    (ho : d.probe.outstanding = false) : d.Tail m := by
  rw [Driver.Tail, ho, if_neg Bool.false_ne_true]
  exact h

/-- What is left behind when a stream could not be waited for. -/
def Driver.Left (F : Machine → Prop) (d : Driver) (m : Machine) : Prop :=
  F m ∧ ∃ left, d.Unless left d.Tail m

/-- A stream that is waited for has been executed as a whole, and so has all that was queued before
it. -/
theorem triple_flushed {d : Driver} {B F : Machine → Prop} (hd : d.Sound)
    (hB : d.banks.Steady B F) (hB' : d.banks.Indifferent B) (hF : d.banks.Steady F F)
    (hF' : d.banks.Indifferent F) (hR : ∀ m, d.banks.Ready m → F m) {stream : List UInt8}
    (hs : Flushable d B stream) (left : Bool) (c : Nat) :
    Triple (Driving.On d fun m => B m ∧ d.Unless left (fun m => d.Tail m ∧ Counts c m) m)
      (Driving.executeStream stream)
      (fun _ h => ∃ generation, Driving.On (d.probing generation false) (fun m =>
        d.banks.Ready m ∧ d.Unless false (fun m => m.device.queue = [] ∧
          m.device.executed = c + stream.length / d.layout.instructionBytes + 2) m) h)
      (Driving.OnAny d (Driver.Left F)) := by
  have hd₁ : (d.probing d.probe.generation false).Sound := hd.probing ..
  have hd₂ : (d.probing (d.probe.generation + 1) false).Sound := hd.probing ..
  have hsettled : ∀ (generation : Nat) m, F m ∧ d.Unless left d.Settled m →
      Driver.Left F (d.probing generation false) m :=
    fun _ m h => ⟨h.1, left, h.2.mono fun h => Driver.Settled.tail h rfl⟩
  refine Driving.triple_executeStream (d := d)
    (R := Driving.On (d.probing d.probe.generation false) fun m => B m ∧
      d.Unless left (fun m => d.Settled m ∧ Counts c m) m)
    (S := Driving.On (d.probing (d.probe.generation + 1) false) fun m => B m ∧
      d.Unless left (fun m => (d.Settled m ∧ d.Cleared d.arch.rowBytes m) ∧ Counts c m) m)
    (T := Driving.On (d.probing (d.probe.generation + 1) false) fun m =>
      (d.banks.Ready m ∧ d.Pending [] True m ∧
        Counts (c + stream.length / d.layout.instructionBytes + 2) m) ∧
        (m.memory.region? d.config.stagingBuffer).isSome = false)
    ?_ ?_ ?_ ?_ (fun probe hm hp => ?_) ?_
  · exact fun h hh => hh.elim (fun ho => ⟨_, _, ho.driver⟩) fun ho => ⟨_, _, ho.driver⟩
  · rintro h (ho | ho)
    · exact (ho.mono fun m hm => ⟨hB.stop m hm.1, left, hm.2.mono And.left⟩).any
    · exact ⟨_, _, ho.mono fun m hm => hsettled _ m ⟨hB.stop m hm.1, hm.2.mono fun h => h.1.1⟩⟩
  · refine (Driving.triple_onProbe (triple_settle hB hd left c _)).weaken (fun _ h => h)
      (fun _ h ha => ha.on) fun h ha => ?_
    exact ⟨_, _, ha.on.mono fun m hm => ⟨hm.1, left, hm.2⟩⟩
  · refine (Driving.triple_onProbe (triple_armed
      (d := d.probing d.probe.generation false) hB hB' hd₁)).weaken (fun _ h => h)
      (fun _ h ha => ha.on) ?_
    rintro h ⟨probe, hdriver, hp | hp⟩
    · exact ⟨d.probe.generation, false, (Driving.Around.on (d := d) ⟨probe, hdriver, hp⟩).mono
        (hsettled d.probe.generation)⟩
    · exact ⟨d.probe.generation + 1, false, (Driving.Around.on (d := d) ⟨probe, hdriver, hp⟩).mono
        (hsettled (d.probe.generation + 1))⟩
  · have hsub := submits_flush (d := d.probing (d.probe.generation + 1) false) (c := c) hd₂ hB hB'
      hF hF' hR hm hp hs
    refine (Driving.triple_dmaWrite hsub (append_probe_ne_nil hd hp)
      (A := fun m => B m ∧ d.Unless left (fun m =>
      (d.Settled m ∧ d.Cleared d.arch.rowBytes m) ∧ Counts c m) m) ?_ ?_).weaken (fun _ h => h)
      (fun _ _ h => h) ?_
    · rintro m ⟨hb, hl, hj⟩ hnone
      change m.memory.region? d.config.stagingBuffer = none at hnone
      rw [hnone] at hl
      exact ⟨hb, hj hl.symm⟩
    · exact fun m ⟨hb, hj⟩ => ⟨hB.stop m hb, left, hj.mono fun h => h.1.1⟩
    · exact fun h ho => ⟨_, _, ho.mono fun m ⟨hf, l, hl⟩ =>
        ⟨hf, l, hl.mono fun h => Driver.Settled.tail h rfl⟩⟩
  · refine (Driving.triple_onProbe (triple_wait (d := d.probing (d.probe.generation + 1) false)
      ((Banks.steady_ready hd.fit).mono hR) hd₂ false []
      (c + stream.length / d.layout.instructionBytes + 2) d.config.flush)).weaken ?_ ?_ ?_
    · exact fun h ho =>
        ho.mono fun m ⟨⟨hr, hpend, hcount⟩, hl⟩ => ⟨hr, hl, fun _ => ⟨hpend, hcount⟩⟩
    · refine fun _ h ha => ⟨d.probe.generation + 1, ha.on.mono fun m ⟨hr, hl, hj⟩ =>
        ⟨hr, hl, fun hf => ?_⟩⟩
      obtain ⟨hq, hcount⟩ := hj hf
      have hempty := List.suffix_nil.mp hq
      rw [Counts, hempty, List.length_nil, Nat.add_zero] at hcount
      exact ⟨hempty, hcount⟩
    · have hnil : ∀ instr ∈ ([] : List Instruction), ¬ WritesDram0 instr d.target :=
        fun _ hi => (nomatch hi)
      exact fun h ha => ⟨_, _, ha.on.mono fun m hm => ⟨hm.1, false, hm.2.mono
        (Driver.Pending.tail (d := d.probing (d.probe.generation + 1) true) rfl hnil)⟩⟩

section Programs

variable {d : Driver} {P B : Machine → Prop} {program : List Instruction} {stream : List UInt8}

theorem Driving.triple_assemble :
    Triple (Driving.On d P) (Driving.assemble program)
      (fun stream h => Tcu.assemble d.layout program = .ok stream ∧ Driving.On d P h)
      (Driving.On d P) := by
  refine Driving.triple_getDriver.bind fun x => Triple.assume fun hx => ?_
  subst hx
  exact triple_ofEncode (fun stream h hr ho => ⟨hr, ho⟩) fun _ h => h

theorem Driving.triple_executeProgram {Q : Nat → Driving (Switch Simulator) → Prop}
    {G : Driving (Switch Simulator) → Prop} (h₀ : ∀ h, Driving.On d P h → G h)
    (h : ∀ stream, Tcu.assemble d.layout program = .ok stream →
      Triple (Driving.On d P) (Driving.executeStream stream) Q G) :
    Triple (Driving.On d P) (Driving.executeProgram program) Q G := by
  apply (Driving.triple_assemble.weaken (fun _ h => h) (fun _ _ h => h) h₀).bind
  intro stream
  exact Triple.assume fun hs => h stream hs

theorem flushable_program (hd : d.Sound) (hs : Tcu.assemble d.layout program = .ok stream)
    (hharm : ∀ instr ∈ program, ¬ WritesDram0 instr d.target)
    (hready : ∀ m, B m → d.banks.Ready
      { m with device := m.device.enqueue (program ++ d.probe.instructions) }) :
    Flushable d B stream := by
  intro queued hq
  rw [(Simulator.instructions_assemble hd.whole hs).1] at hq
  cases hq
  exact ⟨hharm, hready⟩

theorem length_assemble (hd : d.Sound) (hs : Tcu.assemble d.layout program = .ok stream) :
    stream.length / d.layout.instructionBytes = program.length := by
  rw [(Tcu.decode_assemble hd.whole hs).1, Nat.mul_div_cancel _ hd.whole.instructionBytes_pos]

end Programs

end TensorUnit.Host
