import TensorUnit.Proofs.Sim.Device

namespace TensorUnit.Sim

open TensorUnit.Action (Triple Keeps)
open Remote (DeviceFault)
open Tcu (Instruction Register)

namespace Machine

def withQueue (m : Machine) (queue : List Instruction) : Machine :=
  { m with device := { m.device with queue } }

theorem executeNext_run (m : Machine) :
    executeNext.run m =
      match m.device.queue with
      | [] => (.ok (), m)
      | instr :: queue =>
        match (execute instr).run (m.withQueue queue) with
        | (.ok _, t) => (.ok (), countExecuted t)
        | (.error fault, t) => (.error fault, dropQueue t) := by
  obtain ⟨⟨arch, registers, scratchpad, accumulator, queue, executed⟩, memory⟩ := m
  cases queue with
  | nil => rfl
  | cons instr queue =>
    rw [executeNext, Action.bind_run]
    change ((Action.attempt (execute instr) : Step _) >>= fun _ => _).run _ = _
    rw [Action.bind_run, Action.attempt_run]
    change _ = match (execute instr).run
        ⟨⟨arch, registers, scratchpad, accumulator, queue, executed⟩, memory⟩ with
      | (.ok _, t) => (Except.ok (), countExecuted t)
      | (.error fault, t) => (Except.error fault, dropQueue t)
    generalize (execute instr).run
      ⟨⟨arch, registers, scratchpad, accumulator, queue, executed⟩, memory⟩ = outcome
    obtain ⟨_ | _, t⟩ := outcome <;> rfl

theorem triple_executeNext {P Q E : Machine → Prop}
    (idle : ∀ m, P m → m.device.queue = [] → Q m)
    (done : ∀ m instr queue t, P m → m.device.queue = instr :: queue →
      (execute instr).run (m.withQueue queue) = (.ok (), t) → Q (countExecuted t))
    (fault : ∀ m instr queue f t, P m → m.device.queue = instr :: queue →
      (execute instr).run (m.withQueue queue) = (.error f, t) → E (dropQueue t)) :
    Triple P executeNext (fun _ => Q) E := by
  intro m hp
  rw [executeNext_run]
  cases hq : m.device.queue with
  | nil => exact idle m hp hq
  | cons instr queue =>
    simp only
    cases hr : (execute instr).run (m.withQueue queue) with
    | mk r t =>
      cases r with
      | ok _ => exact done m instr queue t hp hq hr
      | error f => exact fault m instr queue f t hp hq hr

theorem triple_stepMany {P E : Machine → Prop} (h : Triple P executeNext (fun _ => P) E)
    (count : Nat) : Triple P (stepMany count) (fun _ => P) E := by
  induction count with
  | zero => exact Triple.pure fun _ h => h
  | succ count ih => exact h.bind fun _ => ih

theorem triple_step {P E : Machine → Prop} (h : Triple P executeNext (fun _ => P) E)
    (limit : Option Nat) : Triple P (step limit) (fun _ => P) E := by
  apply Triple.bind (Q := fun _ => P) (Triple.view fun _ h => h)
  intro count
  exact (triple_stepMany h count).bind fun _ => Triple.pure fun _ h => h

theorem stepMany_of_empty {m : Machine} (hq : m.device.queue = []) (count : Nat) :
    (stepMany count).run m = (.ok (), m) := by
  have hnext : executeNext.run m = (.ok (), m) := by rw [executeNext_run, hq]
  induction count with
  | zero => rfl
  | succ count ih =>
    rw [stepMany, Action.bind_run, hnext]
    exact ih

theorem step_of_empty {m : Machine} (hq : m.device.queue = []) (limit : Option Nat) :
    (step limit).run m = (.ok 0, m) := by
  have hpending : m.device.pending = 0 := by
    rw [Device.pending, hq]
    rfl
  have hcount : m.stepCount limit = 0 := by
    cases limit with
    | none => exact hpending
    | some n => exact (congrArg (min n) hpending).trans (Nat.min_zero n)
  rw [step, Action.bind_run, Action.view_run]
  simp only [hcount]
  rfl

end Machine

theorem Device.register_setRegister (d : Device) (r r' : Register) (value : UInt64) :
    (d.setRegister r value).register r' = if r' = r then value else d.register r' := by
  unfold register setRegister
  simp only
  by_cases h : r' = r
  · rw [h, List.lookup_cons_self, if_pos rfl]
    rfl
  · rw [List.lookup_cons, beq_eq_false_iff_ne.mpr h, if_neg h]
    congr 1
    induction d.registers with
    | nil => rfl
    | cons e rest ih => grind

namespace Banks

variable {b : Banks}

def settled (d : Device) (confs : List (Register × UInt64)) (r : Register) : UInt64 :=
  (confs.reverse.lookup r).getD (d.register r)

theorem settled_cons (d : Device) (c : Register × UInt64) (confs : List (Register × UInt64))
    (r : Register) : settled (d.setRegister c.1 c.2) confs r = settled d (c :: confs) r := by
  obtain ⟨key, value⟩ := c
  unfold settled
  rw [List.reverse_cons, List.lookup_append, Device.register_setRegister]
  cases hl : confs.reverse.lookup r with
  | some value => rfl
  | none =>
    rw [Option.none_or, List.lookup_cons, List.lookup_nil]
    by_cases h : r = key
    · rw [if_pos h, beq_iff_eq.mpr h]
      rfl
    · rw [if_neg h, beq_eq_false_iff_ne.mpr h]

/-- Once the Configures at the head of the queue are done the unit finds the banks, and nothing
behind them says otherwise. -/
def Aimed (b : Banks) (d : Device) : Prop :=
  ∃ confs rest, d.queue = confs.map (fun c => .configure c.1 c.2) ++ rest ∧
    (∀ k : Bank, settled d confs (Machine.offsetRegister k.space) = b.offset k) ∧
    ∀ instr ∈ rest, ¬ ConfiguresBank instr

theorem aimed_of_located {d : Device} (hl : b.Located d)
    (hq : ∀ instr ∈ d.queue, ¬ ConfiguresBank instr) : b.Aimed d :=
  ⟨[], d.queue, rfl, hl, hq⟩

theorem Aimed.append {d : Device} (h : b.Aimed d) {more : List Instruction}
    (hm : ∀ instr ∈ more, ¬ ConfiguresBank instr) : b.Aimed (d.enqueue more) := by
  obtain ⟨confs, rest, hq, hs, hr⟩ := h
  refine ⟨confs, rest ++ more, ?_, hs, fun instr hi => ?_⟩
  · rw [Device.enqueue, hq, List.append_assoc]
  · rcases List.mem_append.mp hi with hi | hi
    · exact hr instr hi
    · exact hm instr hi

theorem Aimed.located {d : Device} (h : b.Aimed d)
    (hq : ∀ instr ∈ d.queue, ¬ ConfiguresBank instr) : b.Located d := by
  obtain ⟨confs, rest, he, hs, _⟩ := h
  intro k
  have hnone : confs.reverse.lookup (Machine.offsetRegister k.space) = none := by
    refine List.lookup_eq_none_iff.mpr fun c hc => bne_iff_ne.mpr fun hk => ?_
    refine hq (.configure c.1 c.2) ?_ ⟨k, hk.symm⟩
    rw [he]
    exact List.mem_append_left _ (List.mem_map_of_mem (List.mem_reverse.mp hc))
  rw [← hs k, settled, hnone]
  rfl

structure Next (b : Banks) (instr : Instruction) (m t : Machine) : Prop where
  extents : t.memory.extents = m.memory.extents
  spares : b.Spares (WritesDram0 instr) m.memory t.memory

structure Ready (b : Banks) (m : Machine) : Prop where
  hold : b.Hold m
  aimed : b.Aimed m.device

section Execute

variable (hf : b.Fit) {m t : Machine} {instr : Instruction} {queue : List Instruction}
include hf

theorem Ready.executed (h : b.Ready m) (hq : m.device.queue = instr :: queue)
    (hr : (Machine.execute instr).run (m.withQueue queue) = (.ok (), t)) :
    b.Ready t ∧ b.Next instr m t := by
  have hold : b.Hold (m.withQueue queue) :=
    ⟨h.hold.arch, h.hold.cells, h.hold.apart, h.hold.extents⟩
  have hk := Machine.kept_execute instr (m.withQueue queue)
  rw [hr] at hk
  obtain ⟨confs, rest, he, hs, hn⟩ := h.aimed
  rw [hq] at he
  cases confs with
  | nil =>
    obtain rfl : instr :: queue = rest := he
    have hnc := hn instr (List.mem_cons_self ..)
    by_cases hc : ∃ r v, instr = .configure r v
    · obtain ⟨r, v, rfl⟩ := hc
      cases hr
      refine ⟨⟨hold.of_kept hk, [], queue, rfl, fun k => ?_, fun j hj =>
        hn j (List.mem_cons_of_mem _ hj)⟩, rfl, .refl _ _⟩
      have hne : Machine.offsetRegister k.space ≠ r := fun he => hnc ⟨k, he.symm⟩
      change ((m.withQueue queue).device.setRegister r v).register _ = _
      rw [Device.register_setRegister, if_neg hne]
      exact hs k
    · have hnot : ∀ r v, instr ≠ .configure r v := fun r v he => hc ⟨r, v, he⟩
      have hframe := frame_execute hf hold (fun k => hs k) hnot
      rw [hr] at hframe
      refine ⟨⟨hold.of_kept hk, aimed_of_located (hframe.located fun k => hs k) ?_⟩,
        hk.extents, hframe.spares⟩
      rw [hk.queue]
      exact fun j hj => hn j (List.mem_cons_of_mem _ hj)
  | cons c confs =>
    obtain ⟨rfl, hq'⟩ := List.cons.inj he
    cases hr
    refine ⟨⟨hold.of_kept hk, confs, rest, hq', fun k => ?_, hn⟩, rfl, .refl _ _⟩
    exact (settled_cons ..).trans (hs k)

theorem Ready.counted (h : b.Ready m) (hq : m.device.queue = instr :: queue)
    (hr : (Machine.execute instr).run (m.withQueue queue) = (.ok (), t)) :
    b.Ready (Machine.countExecuted t) ∧
      m.device.queue = instr :: (Machine.countExecuted t).device.queue ∧
      (Machine.countExecuted t).device.executed = m.device.executed + 1 ∧
      b.Next instr m (Machine.countExecuted t) := by
  have hk := Machine.kept_execute instr (m.withQueue queue)
  rw [hr] at hk
  obtain ⟨⟨hold, aimed⟩, hn⟩ := h.executed hf hq hr
  refine ⟨⟨⟨hold.arch, hold.cells, hold.apart, hold.extents⟩, aimed⟩, ?_, ?_,
    ⟨hn.extents, hn.spares⟩⟩
  · change m.device.queue = instr :: t.device.queue
    rw [hq, hk.queue]
    rfl
  · change t.device.executed + 1 = _
    rw [hk.executed]
    rfl

theorem Ready.failed (h : b.Ready m) (hq : m.device.queue = instr :: queue) {f : DeviceFault}
    (hr : (Machine.execute instr).run (m.withQueue queue) = (.error f, t)) :
    b.Ready (Machine.dropQueue t) ∧ b.Next instr m t := by
  have hold : b.Hold (m.withQueue queue) :=
    ⟨h.hold.arch, h.hold.cells, h.hold.apart, h.hold.extents⟩
  have hk := Machine.kept_execute instr (m.withQueue queue)
  rw [hr] at hk
  obtain ⟨confs, rest, he, hs, hn⟩ := h.aimed
  rw [hq] at he
  cases confs with
  | nil =>
    have hnc : ∀ r v, instr ≠ .configure r v := by
      rintro r v rfl
      cases hr
    have hframe := frame_execute hf hold (fun k => hs k) hnc
    rw [hr] at hframe
    have hold' := hold.of_kept hk
    have hl : b.Located t.device := hframe.located fun k => hs k
    exact ⟨⟨⟨hold'.arch, hold'.cells, hold'.apart, hold'.extents⟩,
      aimed_of_located hl fun _ hi => (nomatch hi)⟩, hk.extents, hframe.spares⟩
  | cons c confs =>
    obtain ⟨rfl, _⟩ := List.cons.inj he
    cases hr

end Execute

/-- A set of machines that hold their banks and in which an instruction changes no more than it is
told to write. A fault ends in the set `F`. -/
structure Steady (b : Banks) (B F : Machine → Prop) : Prop where
  hold : ∀ m, B m → b.Hold m
  stop : ∀ m, B m → F m
  step : ∀ {J E : Machine → Prop},
    (∀ m instr t, B m → J m → m.device.queue = instr :: t.device.queue →
      t.device.executed = m.device.executed + 1 → b.Next instr m t → J t) →
    (∀ m instr t, B m → J m → instr ∈ m.device.queue → t.device.queue = [] →
      b.Next instr m t → E t) →
    Triple (fun m => B m ∧ J m) Machine.executeNext (fun _ m => B m ∧ J m) fun m => F m ∧ E m

theorem Steady.triple {B F : Machine → Prop} (hB : b.Steady B F) :
    Triple B Machine.executeNext (fun _ => B) F :=
  (hB.step (J := fun _ => True) (E := fun _ => True) (fun _ _ _ _ _ _ _ _ => trivial)
    fun _ _ _ _ _ _ _ _ => trivial).weaken (fun _ h => ⟨h, trivial⟩) (fun _ _ h => h.1)
    fun _ h => h.1

theorem steady_ready (hf : b.Fit) : b.Steady b.Ready b.Ready where
  hold _ h := h.hold
  stop _ h := h
  step := by
    intro J E done fault
    apply Machine.triple_executeNext
    · exact fun _ h _ => h
    · rintro m instr queue t ⟨h, hj⟩ hq hr
      obtain ⟨hready, hqueue, hexecuted, hnext⟩ := h.counted hf hq hr
      exact ⟨hready, done m instr _ h hj hqueue hexecuted hnext⟩
    · rintro m instr queue f t ⟨h, hj⟩ hq hr
      obtain ⟨hready, hn⟩ := h.failed hf hq hr
      refine ⟨hready, fault m instr _ h hj ?_ rfl ⟨hn.extents, hn.spares⟩⟩
      rw [hq]
      exact List.mem_cons_self ..

theorem triple_idle {B E : Machine → Prop} (hq : ∀ m, B m → m.device.queue = []) :
    Triple B Machine.executeNext (fun _ => B) E := by
  apply Machine.triple_executeNext
  · exact fun _ h _ => h
  · intro m instr queue t h he _
    rw [hq m h] at he
    cases he
  · intro m instr queue f t h he _
    rw [hq m h] at he
    cases he

theorem steady_idle {B F : Machine → Prop} (hh : ∀ m, B m → b.Hold m)
    (hq : ∀ m, B m → m.device.queue = []) (hF : ∀ m, B m → F m) : b.Steady B F where
  hold := hh
  stop := hF
  step _ _ := triple_idle fun m h => hq m h.1

theorem Steady.or {B C F : Machine → Prop} (hB : b.Steady B F) (hC : b.Steady C F) :
    b.Steady (fun m => B m ∨ C m) F where
  hold m h := h.elim (hB.hold m) (hC.hold m)
  stop m h := h.elim (hB.stop m) (hC.stop m)
  step := by
    rintro J E done fault m ⟨hb | hc, hj⟩
    · exact (hB.step (fun m instr t h => done m instr t (.inl h)) fun m instr t h =>
        fault m instr t (.inl h)).relax (fun _ _ h => ⟨.inl h.1, h.2⟩) m ⟨hb, hj⟩
    · exact (hC.step (fun m instr t h => done m instr t (.inr h)) fun m instr t h =>
        fault m instr t (.inr h)).relax (fun _ _ h => ⟨.inr h.1, h.2⟩) m ⟨hc, hj⟩

theorem Steady.mono {B F G : Machine → Prop} (hB : b.Steady B F) (hG : ∀ m, F m → G m) :
    b.Steady B G where
  hold := hB.hold
  stop m h := hG m (hB.stop m h)
  step done fault := (hB.step done fault).weaken (fun _ h => h) (fun _ _ h => h)
    fun m h => ⟨hG m h.1, h.2⟩

theorem keeps_isSome {name : String} {present : Bool} :
    Keeps (fun m : Machine => (m.memory.region? name).isSome = present) Machine.executeNext := by
  apply Machine.triple_executeNext
  · exact fun _ h _ => h
  · intro m instr queue t h _ hr
    have hk := Machine.kept_execute instr (m.withQueue queue)
    rw [hr] at hk
    exact (Memory.region?_isSome_congr hk.extents name).trans h
  · intro m instr queue f t h _ hr
    have hk := Machine.kept_execute instr (m.withQueue queue)
    rw [hr] at hk
    exact (Memory.region?_isSome_congr hk.extents name).trans h

theorem Steady.triple_has {B F : Machine → Prop} (hB : b.Steady B F) {name : String}
    (hn : ∀ k, b.name k ≠ name) {bytes : List UInt8} {J E : Machine → Prop}
    (h : Triple (fun m => B m ∧ J m) Machine.executeNext (fun _ m => B m ∧ J m) E) :
    Triple (fun m => (B m ∧ J m) ∧ m.memory.Has name bytes) Machine.executeNext
      (fun _ m => (B m ∧ J m) ∧ m.memory.Has name bytes) E := by
  have hhas : Triple (fun m => B m ∧ m.memory.Has name bytes) Machine.executeNext
      (fun _ m => B m ∧ m.memory.Has name bytes) fun m => F m ∧ True := by
    refine hB.step ?_ fun _ _ _ _ _ _ _ _ => trivial
    rintro m instr t _ ⟨hs, hb⟩ _ _ hnext
    refine ⟨(Memory.region?_isSome_congr hnext.extents name).trans hs, ?_⟩
    exact (hnext.spares.other name fun k => (hn k).symm).trans hb
  exact (h.and hhas).weaken (fun _ h => ⟨h.1, h.1.1, h.2⟩) (fun _ _ h => ⟨h.1, h.2.2⟩)
    fun _ h => h.1

theorem Hold.beside {m : Machine} (h : b.Hold m) {name : String} (hn : ∀ k, b.name k ≠ name)
    {memory : Memory} (ha : memory.Apart) (hb : Memory.Beside name m.memory memory) :
    b.Hold { m with memory } := by
  refine ⟨h.arch, h.cells, ha, fun k => ?_⟩
  obtain ⟨r, hr, hbase, hsize⟩ := h.apart.region?_of_mem (h.extents k)
  have hr' : memory.region? (b.name k) = some r := (hb _ (hn k)).trans hr
  have he : Extent.of (b.name k, r) = b.extent k := by
    rw [Extent.of, hbase, hsize]
    rfl
  rw [← he]
  exact List.mem_map_of_mem (Memory.mem_regions hr')

theorem Hold.write {m : Machine} (h : b.Hold m) (name : String) (offset : UInt64)
    (data : List UInt8) : b.Hold { m with memory := m.memory.write name offset data } := by
  refine ⟨h.arch, h.cells, h.apart.write .., fun k => ?_⟩
  change _ ∈ (m.memory.write name offset data).extents
  rw [Memory.extents_write]
  exact h.extents k

def Indifferent (b : Banks) (B : Machine → Prop) : Prop :=
  ∀ m memory, B m → b.Hold { m with memory } → B { m with memory }

theorem indifferent_ready : b.Indifferent b.Ready :=
  fun _ _ h hold => ⟨hold, h.aimed⟩

theorem indifferent_idle : b.Indifferent fun m => b.Hold m ∧ m.device.queue = [] :=
  fun _ _ h hold => ⟨hold, h.2⟩

theorem Indifferent.or {B C : Machine → Prop} (hB : b.Indifferent B) (hC : b.Indifferent C) :
    b.Indifferent fun m => B m ∨ C m :=
  fun m memory h hold => h.imp (hB m memory · hold) (hC m memory · hold)

theorem keeps_hold : Keeps b.Hold Machine.executeNext := by
  have hkept : ∀ (m : Machine) instr queue, b.Hold m →
      b.Hold ((Machine.execute instr).run (m.withQueue queue)).2 := by
    intro m instr queue h
    have hold : b.Hold (m.withQueue queue) := ⟨h.arch, h.cells, h.apart, h.extents⟩
    exact hold.of_kept (Machine.kept_execute ..)
  apply Machine.triple_executeNext
  · exact fun _ h _ => h
  · intro m instr queue t h _ hr
    have hold := hkept m instr queue h
    rw [hr] at hold
    exact ⟨hold.arch, hold.cells, hold.apart, hold.extents⟩
  · intro m instr queue f t h _ hr
    have hold := hkept m instr queue h
    rw [hr] at hold
    exact ⟨hold.arch, hold.cells, hold.apart, hold.extents⟩

theorem Hold.size_lt {m : Machine} (h : b.Hold m) : b.size < 2 ^ 64 := by
  have hstop := (h.apart.below _ (h.extents .dram0)).1
  have hnext := m.memory.next.toNat_lt
  simp only [Extent.stop, extent] at hstop
  omega

end Banks

end TensorUnit.Sim
