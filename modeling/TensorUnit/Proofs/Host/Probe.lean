import TensorUnit.Proofs.Host.Staging
import TensorUnit.Proofs.Scalars

namespace TensorUnit.Host

open TensorUnit.Action (Triple Keeps)
open Remote Sim
open Tcu (Instruction)

def Counts (c : Nat) (m : Machine) : Prop :=
  m.device.executed + m.device.queue.length = c

namespace Driver

variable (d : Driver)

def source : UInt64 :=
  d.probe.source.val

def target : UInt64 :=
  d.probe.target.val

def fetch : Instruction :=
  .move .dram0ToLocal d.probe.scratchpad.val d.probe.source.val 0

def carry : Instruction :=
  .move .localToDram0 d.probe.scratchpad.val d.target 0

/-- Nothing in the queue writes the target row. -/
def Settled (m : Machine) : Prop :=
  ∀ instr ∈ m.device.queue, ¬ WritesDram0 instr d.target

def Cleared (n : Nat) (m : Machine) : Prop :=
  ∀ i, d.target.toNat * d.arch.rowBytes ≤ i → i < d.target.toNat * d.arch.rowBytes + n →
    (d.banks.contents m .dram0)[i]? = some 0

/-- The stamp is still to be carried: all before the move is harmless, and the row is zero. -/
def Waiting (post : List Instruction) (m : Machine) : Prop :=
  (∃ pre, m.device.queue = pre ++ d.carry :: post ∧ ∀ instr ∈ pre, ¬ WritesDram0 instr d.target) ∧
    d.Cleared d.arch.rowBytes m

/-- A probe that was sent, with `post` sent behind it: the move is done, or the stamp is still to be
carried and `X` holds. -/
def Pending (post : List Instruction) (X : Prop) (m : Machine) : Prop :=
  m.device.queue <:+ post ∨ d.Waiting post m ∧ X

/-- Whether a staging buffer was left behind, and what is known of the machine when none was. -/
def Unless (left : Bool) (J : Machine → Prop) (m : Machine) : Prop :=
  (m.memory.region? d.config.stagingBuffer).isSome = left ∧ (left = false → J m)

def Tail (m : Machine) : Prop :=
  if d.probe.outstanding then
    ∃ post, (∀ instr ∈ post, ¬ WritesDram0 instr d.target) ∧ d.Pending post True m
  else d.Settled m

end Driver

variable {d : Driver} {B F J E : Machine → Prop} {post : List Instruction} {X : Prop} {c : Nat}
  {left : Bool}

theorem Driver.Pending.of_queue {m : Machine} (h : m.device.queue = []) : d.Pending post X m :=
  .inl (h ▸ List.nil_suffix)

theorem Driver.Pending.mono {Y : Prop} {m : Machine} (h : d.Pending post X m) (hXY : X → Y) :
    d.Pending post Y m :=
  h.imp id fun hw => ⟨hw.1, hXY hw.2⟩

theorem Driver.Unless.mono {J K : Machine → Prop} {m : Machine} (h : d.Unless left J m)
    (hJK : J m → K m) : d.Unless left K m :=
  ⟨h.1, fun hl => hJK (h.2 hl)⟩

theorem Driver.tail_of_empty {m : Machine} (h : m.device.queue = []) : d.Tail m := by
  unfold Tail
  split
  · exact ⟨[], fun _ hi => (nomatch hi), .inl (h ▸ List.suffix_refl _)⟩
  · intro instr hi
    rw [h] at hi
    cases hi

theorem Driver.Cleared.of_next {m t : Machine} {instr : Instruction} {n : Nat}
    (h : d.Cleared n m) (hn : n ≤ d.arch.rowBytes) (hi : ¬ WritesDram0 instr d.target)
    (hnext : d.banks.Next instr m t) : d.Cleared n t := by
  intro i hlo hhi
  have hrow : i / d.arch.rowBytes = d.target.toNat := by
    apply Nat.div_eq_of_lt_le hlo
    rw [Nat.succ_mul]
    omega
  refine (hnext.spares.dram0 i fun row hw he => hi ?_).trans (h i hlo hhi)
  have hr : row = d.target := UInt64.toNat_inj.mp (he.trans hrow)
  exact hr ▸ hw

theorem Counts.of_next {m t : Machine} {instr : Instruction} (h : Counts c m)
    (hq : m.device.queue = instr :: t.device.queue)
    (he : t.device.executed = m.device.executed + 1) : Counts c t := by
  unfold Counts at h ⊢
  rw [hq, List.length_cons] at h
  omega

section Steady

variable (hB : d.banks.Steady B F)
include hB

theorem triple_settled {n : Nat} (hn : n ≤ d.arch.rowBytes) :
    Triple (fun m => B m ∧ (d.Settled m ∧ d.Cleared n m) ∧ Counts c m) Machine.executeNext
      (fun _ m => B m ∧ (d.Settled m ∧ d.Cleared n m) ∧ Counts c m)
      fun m => F m ∧ d.Settled m := by
  apply hB.step
  · rintro m instr t _ ⟨⟨hs, hc⟩, hcount⟩ hq he hnext
    have hi : ¬ WritesDram0 instr d.target := hs instr (by rw [hq]; exact List.mem_cons_self ..)
    refine ⟨⟨fun j hj => hs j ?_, hc.of_next hn hi hnext⟩, hcount.of_next hq he⟩
    rw [hq]
    exact List.mem_cons_of_mem _ hj
  · rintro m instr t _ _ _ hq _ j hj
    rw [hq] at hj
    cases hj

/-- A step carries the stamp or leaves it to be carried. -/
theorem triple_pending :
    Triple (fun m => B m ∧ d.Pending post X m ∧ Counts c m) Machine.executeNext
      (fun _ m => B m ∧ d.Pending post X m ∧ Counts c m) fun m => F m ∧ m.device.queue = [] := by
  apply hB.step
  · rintro m instr t _ ⟨hs | ⟨⟨⟨pre, he, hpre⟩, hc⟩, hx⟩, hcount⟩ hq hx' hnext
    · rw [hq] at hs
      exact ⟨.inl ((List.suffix_cons instr _).trans hs), hcount.of_next hq hx'⟩
    · refine ⟨?_, hcount.of_next hq hx'⟩
      rw [hq] at he
      cases pre with
      | nil =>
        obtain ⟨_, ht⟩ := List.cons.inj he
        exact .inl (ht ▸ List.suffix_refl _)
      | cons i pre =>
        obtain ⟨rfl, ht⟩ := List.cons.inj he
        have hi := hpre instr (List.mem_cons_self ..)
        exact .inr ⟨⟨⟨pre, ht, fun j hj => hpre j (List.mem_cons_of_mem _ hj)⟩,
          hc.of_next (Nat.le_refl _) hi hnext⟩, hx⟩
  · exact fun _ _ _ _ _ _ hq _ => hq

theorem triple_unless
    (h : Triple (fun m => B m ∧ J m) Machine.executeNext (fun _ m => B m ∧ J m)
      fun m => F m ∧ E m) :
    Triple (fun m => B m ∧ d.Unless left J m) Machine.executeNext
      (fun _ m => B m ∧ d.Unless left J m) fun m => F m ∧ d.Unless left E m := by
  cases left with
  | false =>
    refine (h.and Banks.keeps_isSome).weaken (fun m hm => ⟨⟨hm.1, hm.2.2 rfl⟩, hm.2.1⟩) ?_ ?_
    · exact fun _ m hm => ⟨hm.1.1, hm.2, fun _ => hm.1.2⟩
    · exact fun m hm => ⟨hm.1.1, hm.2, fun _ => hm.1.2⟩
  | true =>
    refine (hB.triple.and Banks.keeps_isSome).weaken (fun m hm => ⟨hm.1, hm.2.1⟩) ?_ ?_
    · exact fun _ m hm => ⟨hm.1, hm.2, fun hl => (nomatch hl)⟩
    · exact fun m hm => ⟨hm.1, hm.2, fun hl => (nomatch hl)⟩

theorem triple_settled_only : Triple (fun m => B m ∧ d.Settled m) Machine.executeNext
    (fun _ m => B m ∧ d.Settled m) fun m => F m ∧ d.Settled m := by
  refine Triple.strengthen (P := fun m => ∃ c,
    B m ∧ (d.Settled m ∧ d.Cleared 0 m) ∧ Counts c m) ?_ ?_
  · apply Triple.exists
    intro c
    exact (triple_settled hB (Nat.zero_le _)).relax fun _ _ h => ⟨h.1, h.2.1.1⟩
  · exact fun m h => ⟨_, h.1, ⟨h.2, fun i hlo hhi => absurd hhi (by omega)⟩, rfl⟩

theorem triple_tail : Triple (fun m => B m ∧ d.Tail m) Machine.executeNext
    (fun _ m => B m ∧ d.Tail m) fun m => F m ∧ d.Tail m := by
  unfold Driver.Tail
  split
  · refine Triple.strengthen (P := fun m => ∃ post c,
      (∀ instr ∈ post, ¬ WritesDram0 instr d.target) ∧ B m ∧ d.Pending post True m ∧ Counts c m)
      ?_ ?_
    · refine Triple.exists fun post => Triple.exists fun c => Triple.assume fun hp => ?_
      exact (triple_pending hB).weaken (fun _ h => h) (fun _ _ h => ⟨h.1, post, hp, h.2.1⟩)
        fun _ h => ⟨h.1, post, hp, .of_queue h.2⟩
    · rintro m ⟨hb, post, hp, h⟩
      exact ⟨post, _, hp, hb, h, rfl⟩
  · exact triple_settled_only hB

end Steady

namespace Probing

structure On (d : Driver) (P : Machine → Prop) (s : Probing (Switch Simulator)) : Prop where
  probe : s.probe = d.probe
  remote : Sim.On d.layout P s.remote

theorem On.mono {P Q : Machine → Prop} {s : Probing (Switch Simulator)} (h : On d P s)
    (hq : ∀ m, P m → Q m) : On d Q s :=
  ⟨h.probe, h.remote.mono hq⟩

variable {α : Type} {P Q : Machine → Prop}

theorem onRemote_run {σ : Type} (a : Action σ DriverError α) (s : Probing σ) :
    (onRemote a).run s = ((a.run s.remote).1, ⟨s.probe, (a.run s.remote).2⟩) := by
  cases s
  rfl

def With {σ : Type} (d : Driver) (P : σ → Prop) (s : Probing σ) : Prop :=
  s.probe = d.probe ∧ P s.remote

theorem triple_with {σ : Type} {a : Action σ DriverError α} {P E : σ → Prop} {R : α → σ → Prop}
    (h : Triple P a R E) :
    Triple (With d P) (onRemote a) (fun x => With d (R x)) (With d E) := by
  intro s hs
  have hr := h s.remote hs.2
  rw [onRemote_run]
  cases ha : a.run s.remote with
  | mk r remote =>
    rw [ha] at hr
    cases r with
    | ok x => exact ⟨hs.1, hr⟩
    | error e => exact ⟨hs.1, hr⟩

theorem triple_onRemote {a : Action (Switch Simulator) DriverError α} {R : α → Machine → Prop}
    (h : Triple (Sim.On d.layout P) a (fun x => Sim.On d.layout (R x)) (Sim.On d.layout E)) :
    Triple (On d P) (onRemote a) (fun x => On d (R x)) (On d E) :=
  (triple_with h).weaken (fun _ hs => ⟨hs.probe, hs.remote⟩) (fun _ _ hs => ⟨hs.1, hs.2⟩)
    fun _ hs => ⟨hs.1, hs.2⟩

theorem triple_getProbe {F : Probing (Switch Simulator) → Prop} :
    Triple (On d P) (getProbe : Act (Switch Simulator) Probe) (fun p s => p = d.probe ∧ On d P s)
      F :=
  Triple.view fun _ h => ⟨h.probe, h⟩

end Probing

def Driver.probing (d : Driver) (generation : Nat) (outstanding : Bool) : Driver :=
  { d with probe := { d.probe with generation, outstanding } }

theorem Driver.Sound.probing (h : d.Sound) (generation : Nat) (outstanding : Bool) :
    (d.probing generation outstanding).Sound :=
  ⟨h.fit, h.layout, h.staging, h.mem, h.depth, h.source, h.target, h.scratchpad, h.arraySize,
    h.maxRaw⟩

section Rows

theorem Driver.Cleared.window {m : Machine} (h : d.Cleared d.arch.rowBytes m) {start length : Nat}
    (hw : start + length ≤ d.arch.rowBytes) :
    ∀ x ∈ ((m.memory.bytes (d.banks.name .dram0)).drop
      (d.target.toNat * d.arch.rowBytes + start)).take length, x = 0 := by
  intro x hx
  obtain ⟨i, hi⟩ := List.mem_iff_getElem?.mp hx
  have hlen : i < length := by
    by_contra hge
    rw [List.getElem?_take, if_neg hge] at hi
    cases hi
  rw [List.getElem?_take_of_lt hlen, List.getElem?_drop] at hi
  have hz := h (d.target.toNat * d.arch.rowBytes + start + i) (by omega) (by omega)
  exact Option.some.inj (hi.symm.trans hz)

theorem toNat_zero {word : List UInt8} (h : ∀ x ∈ word, x = 0) : Bytes.toNat word = 0 := by
  induction word with
  | nil => rfl
  | cons x xs ih =>
    rw [Bytes.toNat, h x (List.mem_cons_self ..), ih fun y hy => h y (List.mem_cons_of_mem _ hy)]
    rfl

theorem ofPattern_zero (dt : DataType) : dt.ofPattern 0 = 0 := by
  rw [DataType.ofPattern]
  cases dt <;> decide

theorem ofBytes_zero {dt : DataType} {bytes : List UInt8} (h : ∀ x ∈ bytes, x = 0) :
    ∀ v ∈ dt.ofBytes bytes, v = 0 := by
  intro v hv
  obtain ⟨word, hw, rfl⟩ := List.mem_map.mp hv
  have hz : ∀ x ∈ word, x = 0 := by
    rw [Bytes.words, Bytes.pieces_eq] at hw
    obtain ⟨i, _, rfl⟩ := List.mem_map.mp hw
    exact fun x hx => h x (List.mem_of_mem_drop (List.mem_of_mem_take hx))
  rw [toNat_zero hz, ofPattern_zero]

theorem Probe.stamp_pos (p : Probe) : 0 < p.stamp := by
  unfold Probe.stamp
  have h := Int.emod_nonneg ((p.generation - 1 : Nat) : Int)
    (by omega : max p.maxRaw 1 ≠ 0)
  omega

theorem Probe.row_eq_ok {p : Probe} {value : Int} {row : List Int} (h : p.row value = .ok row) :
    row = List.replicate p.arraySize.toNat value := by
  unfold Probe.row at h
  split at h
  · exact (Except.ok.inj h).symm
  · cases h

theorem Probe.scalar_eq_ok {p : Probe} {row : RowAddress} {address : ScalarAddress}
    (h : p.scalar row = .ok address) :
    address.val.toNat = row.val.toNat * p.arraySize.toNat := by
  unfold Probe.scalar SpecError.orTooLarge at h
  split at h
  · cases h
    exact (Exact.mul?_eq_some_iff.mp ‹_›).symm
  · cases h

theorem toNat_scalarBytes (arch : Architecture) :
    arch.units.scalarBytes.toNat = arch.dataType.scalarBytes := by
  change (UInt64.ofNat arch.dataType.scalarBytes).toNat = _
  cases arch.dataType <;> rfl

theorem rowBytes_units (arch : Architecture) :
    arch.arraySize.toNat * arch.units.scalarBytes.toNat = arch.rowBytes := by
  rw [toNat_scalarBytes, Architecture.rowBytes]

theorem units_pos (arch : Architecture) : 0 < arch.units.scalarBytes.toNat := by
  rw [toNat_scalarBytes]
  exact scalarBytes_pos _

theorem Driver.Sound.arraySize_pos (h : d.Sound) : 0 < d.arch.arraySize.toNat := by
  have hr : 0 < d.arch.arraySize.toNat * d.arch.dataType.scalarBytes := h.fit.rowBytes
  exact Nat.pos_of_mul_pos_right hr

end Rows

theorem Probing.triple_looks (hd : d.Sound) {P : Machine → Prop} {R : List Int → Machine → Prop}
    (hstop : ∀ m, P m → E m)
    (h : ∀ address : ScalarAddress,
      address.val.toNat * d.arch.units.scalarBytes.toNat = d.target.toNat * d.arch.rowBytes →
      Triple (Sim.On d.layout P) ((d.mem .dram0).read address d.arch.arraySize)
        (fun values => Sim.On d.layout (R values)) (Sim.On d.layout E)) :
    Triple (On d P) (isObserved (d.mem .dram0))
      (fun seen => On d fun m => ∃ values,
        (seen = true → values = List.replicate d.arch.arraySize.toNat d.probe.stamp) ∧ R values m)
      (On d E) := by
  have hE : ∀ s, On d P s → On d E s := fun _ hs => hs.mono hstop
  refine Probing.triple_getProbe.bind fun p => Triple.assume fun hp => ?_
  subst hp
  refine Triple.bind (Q := fun pattern s => pattern = List.replicate d.arch.arraySize.toNat
    d.probe.stamp ∧ On d P s) (triple_ofSpec (fun x s hr hs => ⟨?_, hs⟩) hE) fun pattern =>
      Triple.assume fun hpat => ?_
  · rw [← hd.arraySize]
    exact Probe.row_eq_ok hr
  subst hpat
  refine Triple.bind (Q := fun address s => address.val.toNat = d.target.toNat *
    d.arch.arraySize.toNat ∧ On d P s) (triple_ofSpec (fun x s hr hs => ⟨?_, hs⟩) hE)
      fun address => Triple.assume fun ha => Probing.triple_onRemote ?_
  · rw [← hd.arraySize]
    exact Probe.scalar_eq_ok hr
  rw [Mem.compare, List.length_replicate, UInt64.ofNat_toNat]
  refine (h address ?_).bind fun values => Triple.pure fun w hw => hw.mono fun m hm =>
    ⟨values, of_decide_eq_true, hm⟩
  rw [ha, Nat.mul_assoc, rowBytes_units]

theorem Driver.Unless.exists_post {m : Machine} (ho : d.probe.outstanding = true)
    (h : d.Unless left d.Tail m) : ∃ post, (∀ instr ∈ post, ¬ WritesDram0 instr d.target) ∧
      d.Unless left (d.Pending post True) m := by
  obtain ⟨hl, ht⟩ := h
  cases left with
  | true => exact ⟨[], fun _ hi => (nomatch hi), hl, fun hf => (nomatch hf)⟩
  | false =>
    have ht := ht rfl
    rw [Driver.Tail, if_pos ho] at ht
    obtain ⟨post, hpost, hpend⟩ := ht
    exact ⟨post, hpost, hl, fun _ => hpend⟩

theorem Driver.Pending.tail {m : Machine} (ho : d.probe.outstanding = true)
    (hpost : ∀ instr ∈ post, ¬ WritesDram0 instr d.target) (h : d.Pending post True m) :
    d.Tail m := by
  rw [Driver.Tail, if_pos ho]
  exact ⟨post, hpost, h⟩

section Poll

variable (hB : d.banks.Steady B F)
include hB

theorem reads_target (left : Bool) (post : List Instruction) (c : Nat) :
    Reads (d.banks.name .dram0) (d.target.toNat * d.arch.rowBytes) d.arch.rowBytes
      (fun done m => B m ∧ d.Unless left (fun m =>
        d.Pending post (∀ piece ∈ done, ∀ x ∈ piece, x = 0) m ∧ Counts c m) m)
      (fun m => F m ∧ d.Unless left (d.Pending post True) m) where
  read := by
    rintro done start length m ⟨hb, hp⟩ hw
    refine ⟨hb, hp.mono fun ⟨hp, hc⟩ => ⟨?_, hc⟩⟩
    rcases hp with hs | ⟨hwait, hz⟩
    · exact .inl hs
    · refine .inr ⟨hwait, fun piece hm => ?_⟩
      rcases List.mem_cons.mp hm with rfl | hm
      · exact hwait.2.window hw
      · exact hz piece hm
  step done := (triple_unless hB (triple_pending hB)).weaken (fun _ h => h) (fun _ _ h => h)
    fun _ h => ⟨h.1, h.2.mono .of_queue⟩
  stop done m h := ⟨hB.stop m h.1, h.2.mono fun h => h.1.mono fun _ => trivial⟩

theorem triple_isObserved (hd : d.Sound) (left : Bool) (post : List Instruction) (c : Nat) :
    Triple (Probing.On d fun m => B m ∧ d.Unless left (fun m =>
        d.Pending post True m ∧ Counts c m) m)
      (Probing.isObserved (d.mem .dram0))
      (fun seen => Probing.On d fun m => B m ∧ d.Unless left (fun m => (d.Pending post True m ∧
        Counts c m) ∧ (seen = true → m.device.queue <:+ post)) m)
      (Probing.On d fun m => F m ∧ d.Unless left (d.Pending post True) m) := by
  have hreads := reads_target hB left post c
  have hread : ∀ address : ScalarAddress,
      address.val.toNat * d.arch.units.scalarBytes.toNat = d.target.toNat * d.arch.rowBytes →
      Triple (Sim.On d.layout fun m => B m ∧ d.Unless left (fun m =>
          d.Pending post True m ∧ Counts c m) m)
        ((d.mem .dram0).read address d.arch.arraySize)
        (fun values => Sim.On d.layout fun m => ∃ done : List (List UInt8),
          values = d.arch.dataType.ofBytes done.reverse.flatten ∧ B m ∧ d.Unless left (fun m =>
            d.Pending post (∀ piece ∈ done, ∀ x ∈ piece, x = 0) m ∧ Counts c m) m)
        (Sim.On d.layout fun m => F m ∧ d.Unless left (d.Pending post True) m) := by
    intro address ha
    rw [← ha, ← rowBytes_units d.arch] at hreads
    rw [hd.mem .dram0]
    exact (Mem.triple_read (units_pos d.arch) hreads).strengthen fun _ hw =>
      hw.mono fun m hm => ⟨hm.1, hm.2.mono fun h =>
        ⟨h.1.mono fun _ _ hp => absurd hp List.not_mem_nil, h.2⟩⟩
  refine (Probing.triple_looks hd (fun m hm => ⟨hB.stop m hm.1, hm.2.mono And.left⟩)
    hread).relax fun seen s hs => hs.mono ?_
  rintro m ⟨_, hseen, done, rfl, hb, hp⟩
  refine ⟨hb, hp.mono fun hj => ?_⟩
  obtain ⟨hs | ⟨hwait, hz⟩, hc⟩ := hj
  · exact ⟨⟨.inl hs, hc⟩, fun _ => hs⟩
  · refine ⟨⟨.inr ⟨hwait, trivial⟩, hc⟩, fun ht => ?_⟩
    -- the stamp is positive, and all that was read is zero
    have hmem : d.probe.stamp ∈ List.replicate d.arch.arraySize.toNat d.probe.stamp :=
      List.mem_replicate.mpr ⟨Nat.ne_of_gt hd.arraySize_pos, rfl⟩
    rw [← hseen ht] at hmem
    have hzero := ofBytes_zero (fun x hx => ?_) _ hmem
    · exact absurd hzero (Int.ne_of_gt (Probe.stamp_pos d.probe))
    · obtain ⟨piece, hpiece, hx⟩ := List.mem_flatten.mp hx
      exact hz piece (List.mem_reverse.mp hpiece) x hx

theorem triple_poll (hd : d.Sound) (left : Bool) (post : List Instruction) (c polls more : Nat) :
    Triple (Probing.On d fun m => B m ∧ d.Unless left (fun m =>
        d.Pending post True m ∧ Counts c m) m)
      (Probing.poll (d.mem .dram0) polls more)
      (fun _ => Probing.On (d.probing d.probe.generation false) fun m =>
        B m ∧ d.Unless left (fun m => m.device.queue <:+ post ∧ Counts c m) m)
      (Probing.On d fun m => F m ∧ d.Unless left (d.Pending post True) m) := by
  induction more generalizing polls with
  | zero =>
    exact Triple.fail fun _ h => h.mono fun m hm => ⟨hB.stop m hm.1, hm.2.mono And.left⟩
  | succ more ih =>
    apply (triple_isObserved hB hd left post c).bind
    intro seen
    cases seen with
    | false =>
      refine (ih (polls + 1)).strengthen fun s hs => hs.mono fun m hm => ?_
      exact ⟨hm.1, hm.2.mono And.left⟩
    | true =>
      refine Triple.bind (Triple.update
        (Q := fun _ => Probing.On (d.probing d.probe.generation false) fun m =>
          B m ∧ d.Unless left (fun m => m.device.queue <:+ post ∧ Counts c m) m)
        fun s hs => ?_) fun _ => Triple.pure fun _ h => h
      refine ⟨?_, hs.remote.mono fun m hm => ⟨hm.1, hm.2.mono fun h => ⟨h.2 rfl, h.1.2⟩⟩⟩
      change { s.probe with outstanding := false } = _
      rw [hs.probe]
      rfl

/-- A probe that was sent is waited for until it has been carried; else it is outstanding. -/
theorem triple_wait (hd : d.Sound) (left : Bool) (post : List Instruction) (c : Nat)
    (policy : FlushPolicy) :
    Triple (Probing.On d fun m => B m ∧ d.Unless left (fun m =>
        d.Pending post True m ∧ Counts c m) m)
      (Probing.wait (d.mem .dram0) policy)
      (fun _ => Probing.On (d.probing d.probe.generation false) fun m =>
        B m ∧ d.Unless left (fun m => m.device.queue <:+ post ∧ Counts c m) m)
      (Probing.On (d.probing d.probe.generation true) fun m =>
        F m ∧ d.Unless left (d.Pending post True) m) := by
  refine Triple.bind (Q := fun _ => Probing.On (d.probing d.probe.generation true) fun m =>
    B m ∧ d.Unless left (fun m => d.Pending post True m ∧ Counts c m) m)
    (Triple.update fun s hs => ⟨?_, hs.remote⟩) fun _ => ?_
  · change { s.probe with outstanding := true } = _
    rw [hs.probe]
    rfl
  · exact Triple.viewed fun _ =>
      triple_poll (d := d.probing d.probe.generation true) hB (hd.probing _ _) left post c 0 _

theorem triple_settle (hd : d.Sound) (left : Bool) (c : Nat) (policy : FlushPolicy) :
    Triple (Probing.On d fun m => B m ∧ d.Unless left (fun m => d.Tail m ∧ Counts c m) m)
      (Probing.settle (d.mem .dram0) policy)
      (fun _ => Probing.On (d.probing d.probe.generation false) fun m =>
        B m ∧ d.Unless left (fun m => d.Settled m ∧ Counts c m) m)
      (Probing.On (d.probing d.probe.generation true) fun m =>
        F m ∧ d.Unless left (d.probing d.probe.generation true).Tail m) := by
  refine Probing.triple_getProbe.bind fun p => Triple.assume fun hp => ?_
  subst hp
  cases ho : d.probe.outstanding with
  | true =>
    rw [if_pos rfl]
    refine Triple.bind (Q := fun _ => Probing.On (d.probing d.probe.generation false) fun m =>
      B m ∧ d.Unless left (fun m => d.Settled m ∧ Counts c m) m) ?_
        fun _ => Triple.pure fun _ h => h
    refine Triple.strengthen (P := fun s => ∃ post, (∀ instr ∈ post, ¬ WritesDram0 instr d.target) ∧
      Probing.On d (fun m => B m ∧ d.Unless left (fun m => d.Pending post True m ∧
        Counts c m) m) s) ?_ ?_
    · refine Triple.exists fun post => Triple.assume fun hpost => ?_
      refine (triple_wait hB hd left post c policy).weaken (fun _ h => h) (fun _ s hs => ?_)
        fun s hs => ?_
      · refine hs.mono fun m hm => ⟨hm.1, hm.2.mono fun h => ⟨fun instr hi => ?_, h.2⟩⟩
        exact hpost instr (h.1.subset hi)
      · exact hs.mono fun m hm => ⟨hm.1, hm.2.mono
          (Driver.Pending.tail (d := d.probing d.probe.generation true) rfl hpost)⟩
    · intro s hs
      have hm := hs.remote.remote.machine
      obtain ⟨post, hpost, hpend⟩ := (hm.2.mono And.left).exists_post ho
      exact ⟨post, hpost, hs.probe, hs.remote.plan, hs.remote.remote.layout, hm.1, hm.2.1,
        fun hl => ⟨hpend.2 hl, (hm.2.2 hl).2⟩⟩
  | false =>
    rw [if_neg Bool.false_ne_true]
    refine Triple.pure fun s hs => ⟨?_, hs.remote.mono fun m hm => ⟨hm.1, hm.2.mono ?_⟩⟩
    · rw [hs.probe, Driver.probing, ← ho]
    · rintro ⟨ht, hc⟩
      rw [Driver.Tail, ho, if_neg Bool.false_ne_true] at ht
      exact ⟨ht, hc⟩

end Poll

section Arm

theorem scalarToBytes_zero (dt : DataType) :
    dt.scalarToBytes 0 = List.replicate dt.scalarBytes 0 := by
  cases dt <;> rfl

def Driver.rowOf (d : Driver) (value : Int) : List UInt8 :=
  (List.replicate d.arch.arraySize.toNat value).flatMap d.arch.dataType.scalarToBytes

theorem Driver.length_rowOf (value : Int) : (d.rowOf value).length = d.arch.rowBytes := by
  rw [rowOf, DataType.length_scalars, List.length_replicate, Architecture.rowBytes]

theorem Driver.rowOf_zero : ∀ x ∈ d.rowOf 0, x = 0 := by
  intro x hx
  obtain ⟨v, hv, hx⟩ := List.mem_flatMap.mp hx
  rw [(List.mem_replicate.mp hv).2, scalarToBytes_zero] at hx
  exact (List.mem_replicate.mp hx).2

def Driver.RowBytes (d : Driver) (value : Int) (bytes : List UInt8) : Prop :=
  d.arch.dataType.toBytes (List.replicate d.arch.arraySize.toNat value) = .ok bytes

theorem Driver.RowBytes.eq {value : Int} {bytes : List UInt8} (h : d.RowBytes value bytes) :
    bytes = d.rowOf value := by
  unfold RowBytes DataType.toBytes at h
  split at h
  · cases h
  · exact (Except.ok.inj h).symm

theorem Driver.RowBytes.length {value : Int} {bytes : List UInt8} (h : d.RowBytes value bytes) :
    bytes.length = d.arch.rowBytes := by
  rw [h.eq, length_rowOf]

theorem Driver.RowBytes.zero {bytes : List UInt8} (h : d.RowBytes 0 bytes) :
    ∀ x ∈ bytes, x = 0 := by
  rw [h.eq]
  exact rowOf_zero

variable {P : Machine → Prop} {I : List UInt8 → Nat → Machine → Prop}
  {J : List UInt8 → List UInt8 → Nat → Machine → Prop}

def Driver.next (d : Driver) : Driver :=
  d.probing (d.probe.generation + 1) d.probe.outstanding

theorem triple_writeRow (hd : d.Sound) (row : RowAddress) {value : Int}
    {K : List UInt8 → Nat → Machine → Prop}
    (h : ∀ bytes, d.RowBytes value bytes →
      Fills (d.banks.name .dram0) (row.val.toNat * d.arch.rowBytes) bytes (K bytes) E ∧
        ∀ m, P m → K bytes 0 m) (hstop : ∀ m, P m → E m) {address : ScalarAddress}
    (ha : d.probe.scalar row = .ok address) :
    Triple (Probing.On d P)
      (Probing.onRemote ((d.mem .dram0).write address
        (List.replicate d.arch.arraySize.toNat value)))
      (fun _ => Probing.On d fun m => ∃ bytes, d.RowBytes value bytes ∧ K bytes bytes.length m)
      (Probing.On d E) := by
  apply Probing.triple_onRemote
  rw [hd.mem .dram0]
  have ha := Probe.scalar_eq_ok ha
  rw [hd.arraySize] at ha
  have hoffset : address.val.toNat * d.arch.units.scalarBytes.toNat =
      row.val.toNat * d.arch.rowBytes := by
    rw [ha, toNat_scalarBytes, Nat.mul_assoc, Architecture.rowBytes]
  rw [← hoffset] at h
  exact Mem.triple_write (m := ⟨d.banks.name .dram0, d.arch.dataType, d.arch.units,
    d.dram0.sizeBytes, d.config.chunkSize.toNat⟩) h hstop d.config.chunkSize.toNat_lt

theorem Probing.arm_run_outstanding {σ : Type} [Service σ] {m : Mem} {s : Probing σ}
    (ho : s.probe.outstanding = true) :
    (arm m).run s = (.error (.configuration .rearmed), s) := by
  rw [arm, Action.bind_run]
  change (Action.require (¬ s.probe.outstanding = true) _ >>= _).run s = _
  rw [Action.bind_run, Action.require_run, if_neg (not_not.mpr ho)]

theorem triple_arm (hd : d.Sound)
    (hI : ∀ bytes, d.RowBytes d.next.probe.stamp bytes →
      Fills (d.banks.name .dram0) (d.probe.source.val.toNat * d.arch.rowBytes) bytes (I bytes) E ∧
        ∀ m, P m → I bytes 0 m)
    (hJ : ∀ bytes zeros, d.RowBytes d.next.probe.stamp bytes → d.RowBytes 0 zeros →
      Fills (d.banks.name .dram0) (d.target.toNat * d.arch.rowBytes) zeros (J bytes zeros) E ∧
        ∀ m, I bytes bytes.length m → J bytes zeros 0 m)
    (hstop : ∀ m, P m → E m) :
    Triple (Probing.On d P) (Probing.arm (d.mem .dram0))
      (fun _ => Probing.On d.next fun m => ∃ bytes zeros, d.RowBytes d.next.probe.stamp bytes ∧
        d.RowBytes 0 zeros ∧ J bytes zeros zeros.length m)
      (fun s => Probing.On d E s ∨ Probing.On d.next E s) := by
  refine Probing.triple_getProbe.bind fun p => Triple.assume fun hp => ?_
  subst hp
  refine Triple.bind (Q := fun _ => Probing.On d P)
    (Triple.require (fun _ _ h => h) fun _ _ h => .inl (h.mono hstop)) fun _ => ?_
  refine Triple.bind (Q := fun _ => Probing.On d.next P)
    (Triple.update fun s hs => ⟨?_, hs.remote⟩) fun _ => ?_
  · change { s.probe with generation := s.probe.generation + 1 } = _
    rw [hs.probe]
    rfl
  have hn : d.next.Sound := hd.probing _ _
  have hsize : d.next.probe.arraySize = d.arch.arraySize := hn.arraySize
  refine (Probing.triple_getProbe (d := d.next)).bind fun p => Triple.assume fun hp => ?_
  subst hp
  refine Triple.weaken (E := Probing.On d.next E) ?_ (fun _ h => h) (fun _ _ h => h)
    fun _ h => .inr h
  have hE : ∀ s, Probing.On d.next P s → Probing.On d.next E s := fun _ h => h.mono hstop
  refine Triple.bind (Q := fun pattern s => pattern = List.replicate d.arch.arraySize.toNat
    d.next.probe.stamp ∧ Probing.On d.next P s)
    (triple_ofSpec (fun x s hr h => ⟨?_, h⟩) hE) fun pattern => Triple.assume fun hpat => ?_
  · rw [← hsize]
    exact Probe.row_eq_ok hr
  subst hpat
  refine Triple.bind (Q := fun zeroes s => zeroes = List.replicate d.arch.arraySize.toNat 0 ∧
    Probing.On d.next P s)
    (triple_ofSpec (fun x s hr h => ⟨?_, h⟩) hE) fun zeroes => Triple.assume fun hz => ?_
  · rw [← hsize]
    exact Probe.row_eq_ok hr
  subst hz
  refine Triple.bind (Q := fun address s => d.next.probe.scalar d.next.probe.source = .ok address ∧
    Probing.On d.next P s) (triple_ofSpec (fun x s hr h => ⟨hr, h⟩) hE) fun address =>
    Triple.assume fun ha => ?_
  apply (triple_writeRow hn _ hI hstop ha).bind
  intro _
  refine Triple.strengthen (P := fun s => ∃ bytes, d.RowBytes d.next.probe.stamp bytes ∧
    Probing.On d.next (I bytes bytes.length) s) (Triple.exists fun bytes =>
      Triple.assume fun hb => ?_) fun s hs => ?_
  · have hE' : ∀ m, I bytes bytes.length m → E m := (hI bytes hb).1.stop bytes.length
    refine Triple.bind (Q := fun address s =>
      d.next.probe.scalar d.next.probe.target = .ok address ∧
      Probing.On d.next (I bytes bytes.length) s)
      (triple_ofSpec (fun x s hr h => ⟨hr, h⟩) fun _ h => h.mono hE') fun address =>
      Triple.assume fun ha => ?_
    refine (triple_writeRow hn d.probe.target (K := J bytes)
      (fun zeros hz => hJ bytes zeros hb hz) hE' ha).relax fun _ s hs => hs.mono ?_
    rintro m ⟨zeros, hz, hj⟩
    exact ⟨bytes, zeros, hb, hz, hj⟩
  · obtain ⟨hprobe, hplan, hlayout, bytes, hb, hi⟩ := hs
    exact ⟨bytes, hb, hprobe, hplan, hlayout, hi⟩

end Arm

end TensorUnit.Host
