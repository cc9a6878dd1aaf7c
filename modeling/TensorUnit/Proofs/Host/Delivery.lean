import TensorUnit.Proofs.Host.Caller
import TensorUnit.Proofs.Host.Moments
import TensorUnit.Proofs.Host.Release
import TensorUnit.Proofs.Sim.Moves

namespace TensorUnit.Host

open TensorUnit.Action (Triple Keeps KeepsOr)
open Remote Sim
open Tcu (Instruction)

namespace Driver

variable (d : Driver)

/-- The present stamp in every scalar of a row. -/
def stamps : List Int :=
  List.replicate d.arch.arraySize.toNat d.probe.stamp

def Stamped (row : UInt64) (m : Machine) : Prop :=
  d.arch.dataType.ofBytes (d.banks.row m .dram0 row) = d.stamps

/-- A machine that finds its banks and will not write the source row. -/
def Grounded (m : Machine) : Prop :=
  d.banks.Ready m ∧ ∀ instr ∈ m.device.queue, ¬ WritesDram0 instr d.source

/-- The stamp is on its way into the target row, or has arrived there and will stay. -/
inductive Delivering (m : Machine) : Prop where
  | queued {pre post : List Instruction}
      (queue : m.device.queue = pre ++ d.fetch :: d.carry :: post)
      (stamped : d.Stamped d.source m) (behind : ∀ instr ∈ post, ¬ WritesDram0 instr d.target)
  | fetched {post : List Instruction} (queue : m.device.queue = d.carry :: post)
      (stamped : m.device.localRow d.probe.scratchpad.val = d.stamps)
      (behind : ∀ instr ∈ post, ¬ WritesDram0 instr d.target)
  | delivered (settled : d.Settled m) (stamped : d.Stamped d.target m)

/-- What is known of the machine between two operations. -/
def Kept (m : Machine) : Prop :=
  d.Grounded m ∧
    (d.probe.outstanding = true → d.probe.pattern = .ok d.stamps ∧ d.Delivering m)

variable {d : Driver} {m t : Machine} {instr : Instruction} {queued queue : List Instruction}

theorem Stamped.of_row {row : UInt64} (h : d.Stamped row m)
    (hr : d.banks.row t .dram0 row = d.banks.row m .dram0 row) : d.Stamped row t :=
  (congrArg _ hr).trans h

theorem Grounded.idle (h : d.Grounded m) (ho : d.probe.outstanding = false) : d.Kept m :=
  ⟨h, fun hf => absurd (ho.symm.trans hf) Bool.false_ne_true⟩

theorem Grounded.memory (h : d.Grounded m) {memory : Memory}
    (hold : d.banks.Hold { m with memory }) :
    d.Grounded { m with memory } :=
  ⟨Banks.indifferent_ready m memory h.1 hold, h.2⟩

theorem Grounded.send (h : d.Grounded m)
    (hq : ∀ instr ∈ queued, ¬ WritesDram0 instr d.source ∧ ¬ ConfiguresBank instr) :
    d.Grounded { m with device := m.device.enqueue queued } := by
  obtain ⟨⟨hold, aimed⟩, hs⟩ := h
  refine ⟨⟨⟨hold.arch, hold.cells, hold.apart, hold.extents⟩,
    aimed.append fun instr hi => (hq instr hi).2⟩, fun instr hi => ?_⟩
  exact (List.mem_append.mp hi).elim (hs instr) fun hi => (hq instr hi).1

theorem Delivering.send (h : d.Delivering m)
    (hq : ∀ instr ∈ queued, ¬ WritesDram0 instr d.target) :
    d.Delivering { m with device := m.device.enqueue queued } := by
  have hbehind : ∀ {post : List Instruction}, (∀ instr ∈ post, ¬ WritesDram0 instr d.target) →
      ∀ instr ∈ post ++ queued, ¬ WritesDram0 instr d.target :=
    fun hp instr hi => (List.mem_append.mp hi).elim (hp instr) (hq instr)
  cases h with
  | queued queue stamped behind =>
    refine .queued ((congrArg (· ++ queued) queue).trans (List.append_assoc ..)) stamped ?_
    exact hbehind behind
  | fetched queue stamped behind =>
    exact .fetched (congrArg (· ++ queued) queue) stamped (hbehind behind)
  | delivered settled stamped => exact .delivered (settled.append hq) stamped

/-- It depends neither on what the driver takes to be under way nor on the model. -/
theorem Delivering.update (h : d.Delivering m) (outstanding : Bool)
    (loaded : Option LoadedModel) :
    ({ d with probe := { d.probe with outstanding }, loaded } : Driver).Delivering m := by
  cases h with
  | queued queue stamped behind => exact .queued queue stamped behind
  | fetched queue stamped behind => exact .fetched queue stamped behind
  | delivered settled stamped => exact .delivered settled stamped

theorem Delivering.memory (h : d.Delivering m) {memory : Memory}
    (hr : ∀ row, row = d.source ∨ row = d.target →
      d.banks.row { m with memory } .dram0 row = d.banks.row m .dram0 row) :
    d.Delivering { m with memory } := by
  cases h with
  | queued queue stamped behind => exact .queued queue (stamped.of_row (hr _ (.inl rfl))) behind
  | fetched queue stamped behind => exact .fetched queue stamped behind
  | delivered settled stamped => exact .delivered settled (stamped.of_row (hr _ (.inr rfl)))

theorem Kept.memory (h : d.Kept m) {memory : Memory} (hold : d.banks.Hold { m with memory })
    (hr : ∀ row, row = d.source ∨ row = d.target →
      d.banks.row { m with memory } .dram0 row = d.banks.row m .dram0 row) :
    d.Kept { m with memory } :=
  ⟨h.1.memory hold, fun ho => ⟨(h.2 ho).1, (h.2 ho).2.memory hr⟩⟩

/-- An instruction moves the stamp a step on, or leaves it where it is. -/
theorem Delivering.executed (hd : d.Sound) (h : d.Delivering m) (hg : d.Grounded m)
    (hq : m.device.queue = instr :: queue)
    (hr : (Machine.execute instr).run (m.withQueue queue) = (.ok (), t)) :
    d.Delivering (Machine.countExecuted t) := by
  obtain ⟨⟨hold, aimed⟩, hspared⟩ := hg
  obtain ⟨_, hqueue, _, hnext⟩ := Banks.Ready.counted hd.fit ⟨hold, aimed⟩ hq hr
  have hhead : instr ∈ m.device.queue := hq ▸ List.mem_cons_self ..
  have hheld : d.banks.Hold (m.withQueue queue) :=
    ⟨hold.arch, hold.cells, hold.apart, hold.extents⟩
  have hlocated : (∀ r v, instr ≠ .configure r v) → d.banks.Located (m.withQueue queue).device :=
    aimed.located_of_head hq
  have htail : (Machine.countExecuted t).device.queue = queue :=
    (List.cons.inj (hq.symm.trans hqueue)).2.symm
  cases h with
  | @queued pre post hpost stamped behind =>
    rw [hq] at hpost
    cases pre with
    | nil =>
      obtain ⟨rfl, rfl⟩ := List.cons.inj hpost
      have hloaded := hheld.loaded hd.fit (hlocated (fun _ _ he => nomatch he) .dram0) rfl
        (by decide) hr
      exact .fetched htail (hloaded.trans stamped) behind
    | cons i pre =>
      obtain ⟨rfl, rfl⟩ := List.cons.inj hpost
      exact .queued htail (stamped.of_row (hnext.spares.row_eq (hspared instr hhead))) behind
  | fetched hpost stamped behind =>
    rw [hq] at hpost
    obtain ⟨rfl, rfl⟩ := List.cons.inj hpost
    have hstored := hheld.stored hd.fit (hlocated (fun _ _ he => nomatch he) .dram0) rfl
      (by decide) hr
    refine .delivered (fun instr hi => behind instr (htail ▸ hi)) ?_
    exact (DataType.ofBytes_toBytes hstored).trans stamped
  | delivered settled stamped =>
    refine .delivered (fun j hj => settled j ?_)
      (stamped.of_row (hnext.spares.row_eq (settled instr hhead)))
    rw [hq]
    exact List.mem_cons_of_mem _ (htail ▸ hj)

/-- An operation whose caller leaves the rows of the probe alone and the unit aimed. -/
structure Careful (d : Driver) (op : Operation) : Prop where
  rows : ∀ row, row = d.source ∨ row = d.target → d.LeavesAlone op row
  supplied : ∀ instr, d.Supplies op instr →
    (∀ row, row = d.source ∨ row = d.target → ¬ WritesDram0 instr row) ∧ ¬ ConfiguresBank instr

theorem Careful.part (hd : d.Sound) (hp : d.Placed) {op part : Operation} (h : d.Careful op)
    (hpart : d.Makes op part) : d.Careful part := by
  refine ⟨fun row hrow => hpart.leavesAlone hd hp ?_, fun instr hi => ?_⟩
  · rcases hrow with rfl | rfl
    · exact hd.toNat_source ▸ Nat.le_succ _
    · exact Nat.le_refl _
  · rcases hpart.supplies hd hi with hi | ⟨base, size, _, _, _, rfl⟩
    · exact h.supplied instr hi
    · exact ⟨fun _ _ => id, id⟩

end Driver

section Machines

variable {d : Driver} (hd : d.Sound)
include hd

theorem keeps_grounded : Keeps d.Grounded Machine.executeNext := by
  refine (Banks.steady_ready hd.fit).step ?_ ?_
  · intro m instr t _ hs hq _ _ j hj
    exact hs j (hq ▸ List.mem_cons_of_mem _ hj)
  · intro m instr t _ _ _ hq _ j hj
    rw [hq] at hj
    cases hj

theorem triple_delivering : Triple (fun m => d.Grounded m ∧ d.Delivering m) Machine.executeNext
    (fun _ m => d.Grounded m ∧ d.Delivering m) d.Grounded := by
  have hdelivering : Triple (fun m => d.Grounded m ∧ d.Delivering m) Machine.executeNext
      (fun _ => d.Delivering) fun _ => True := by
    apply Machine.triple_executeNext
    · exact fun _ h _ => h.2
    · exact fun m instr queue t h hq hr => h.2.executed hd h.1 hq hr
    · exact fun _ _ _ _ _ _ _ _ => trivial
  exact (Triple.and (keeps_grounded hd) hdelivering).weaken (fun _ h => ⟨h.1, h⟩) (fun _ _ h => h)
    fun _ h => h.1

theorem triple_kept : Triple d.Kept Machine.executeNext (fun _ => d.Kept) d.Grounded := by
  cases ho : d.probe.outstanding with
  | false =>
    exact (keeps_grounded hd).weaken (fun _ h => h.1) (fun _ _ h => h.idle ho) fun _ h => h
  | true =>
    refine Triple.strengthen (P := fun m => d.probe.pattern = .ok d.stamps ∧
      d.Grounded m ∧ d.Delivering m) (Triple.assume fun hp => ?_)
      fun m h => ⟨(h.2 ho).1, h.1, (h.2 ho).2⟩
    exact (triple_delivering hd).relax fun _ m h => ⟨h.1, fun _ => ⟨hp, h.2⟩⟩

theorem fills_kept {bank : Bank} {start : Nat} {data : List UInt8}
    (ha : ∀ row, row = d.source ∨ row = d.target → bank = .dram0 →
      ∀ i, start ≤ i → i < start + data.length → i / d.arch.rowBytes ≠ row.toNat) :
    Fills (d.banks.name bank) start data (fun _ => d.Kept) d.Grounded where
  write n chunk position m h hn _ ho _ hfit := by
    refine h.memory (h.1.1.hold.write ..) fun row hrow => Banks.row_write (by omega) ?_
    intro hname i hlo hhi
    refine ha row hrow ?_ i (by omega) (by omega)
    by_contra hne
    exact hd.fit.name_ne hne hname
  step _ := triple_kept hd
  stop _ _ h := h.1
  small _ m h := h.1.1.hold.apart.length_bytes_lt _

end Machines

theorem Driving.sends_kept {d : Driver} (hd : d.Sound) {stream : List UInt8}
    (hs : ∀ queued instr, Simulator.instructions d.layout stream = .ok queued → instr ∈ queued →
      (∀ row, row = d.source ∨ row = d.target → ¬ WritesDram0 instr row) ∧
        ¬ ConfiguresBank instr) :
    Sends d stream d.Kept d.Kept d.Grounded where
  ready m h := h.elim (·.1.1) fun h => h.elim (·.1.1) (·.1)
  beside m memory ha hb := by
    have hkept : d.Kept m → d.Kept { m with memory } := fun h =>
      h.memory (h.1.1.hold.beside hd.staging ha hb) fun _ _ => Banks.row_beside hd.staging hb
    exact ⟨hkept, hkept, fun h => h.memory (h.1.hold.beside hd.staging ha hb)⟩
  send m queued h hq := by
    refine ⟨h.1.send fun instr hi => ?_, fun ho => ⟨(h.2 ho).1, (h.2 ho).2.send fun instr hi => ?_⟩⟩
    · exact ⟨(hs queued instr hq hi).1 _ (.inl rfl), (hs queued instr hq hi).2⟩
    · exact (hs queued instr hq hi).1 _ (.inr rfl)
  wait := triple_kept hd
  work := triple_kept hd
  keep := keeps_grounded hd
  stop _ h := h.elim (·.1) (·.1)

section Calls

variable {d : Driver} {w₀ w : Switch Simulator}

/-- An instance that has been called since an earlier state and has not faulted. -/
def Driver.Spared (d : Driver) (w₀ w : Switch Simulator) : Prop :=
  Watched w₀ (fun _ => True) w ∧ Sim.On d.layout d.Kept w

/-- An instance that has been called since an earlier state and may have faulted. -/
def Driver.Shaken (d : Driver) (w₀ : Switch Simulator) : Switch Simulator → Prop :=
  KeptOrFaulted d.layout w₀ d.Kept d.Grounded

theorem Driver.Spared.shaken (h : d.Spared w₀ w) : d.Shaken w₀ w :=
  ⟨h.1, .inl h.2⟩

variable (d w₀) in
theorem follows_kept : Follows d.layout w₀ (fun _ => True) d.Kept d.Grounded (d.Shaken w₀) :=
  follows_faulted fun _ h => h.1

variable (hd : d.Sound)
include hd

theorem loadable_kept {m : Mem} : Loadable (d.Spared w₀) (d.Shaken w₀) m :=
  (readable_followed (follows_kept d w₀) (triple_kept hd) (fun _ h => h)
    fun _ _ _ => trivial).loadable fun _ (h : d.Spared w₀ _) => h.shaken

theorem triple_writeChunked_kept {bank : Bank} {offset : UInt64} {data : List UInt8}
    (ha : ∀ row, row = d.source ∨ row = d.target → bank = .dram0 →
      ∀ i, offset.toNat ≤ i → i < offset.toNat + data.length → i / d.arch.rowBytes ≠ row.toNat) :
    Triple (d.Spared w₀)
      (writeChunked (d.banks.name bank) offset data d.config.chunkSize.toNat)
      (fun _ => d.Spared w₀) (d.Shaken w₀) := by
  have hwrites := (fills_kept hd ha).followed (follows_kept d w₀) (fun _ _ h => h)
    (fun _ _ _ _ => trivial) d.config.chunkSize.toNat_lt
  exact (hwrites.chunked fun _ hw => ⟨hw.1, .inl hw.2.2⟩).weaken
    (fun _ hw => ⟨hw.1, filled_zero hw.2⟩) (fun _ _ hw => ⟨hw.1, hw.2.2⟩) fun _ h => h

theorem keeps_release_shaken : Keeps (d.Shaken w₀)
    (execute [.bufferDealloc d.config.stagingBuffer] :
      Action (Switch Simulator) RemoteError _) := by
  have hrelease : ∀ {P : Machine → Prop}, (∀ m memory, P m → memory.Apart →
      Memory.Beside d.config.stagingBuffer m.memory memory → P { m with memory }) →
      (∀ m, P m → d.Grounded m) → Keeps (Simulator.At d.layout P)
        (Simulator.applyAll [.bufferDealloc d.config.stagingBuffer]) := fun hP hg =>
    Simulator.triple_applyAll_singleton (Simulator.triple_apply_dealloc (fun m memory hm hr =>
      hP m memory hm ((hg m hm).1.hold.apart.dealloc hr) (Memory.beside_dealloc hr)) fun _ h _ => h)
  refine keeps_keptOrFaulted (fun _ h => h.1)
    (hrelease (fun m memory hm ha hb => ?_) fun _ h => h.1)
    (hrelease (fun m memory hm ha hb => ?_) fun _ h => h) (triple_kept hd) (keeps_grounded hd)
  · exact hm.memory (hm.1.1.hold.beside hd.staging ha hb) fun _ _ => Banks.row_beside hd.staging hb
  · exact hm.memory (hm.1.hold.beside hd.staging ha hb)

namespace Driving

theorem triple_dmaWrite_kept {stream : List UInt8} (hc : d.Careful (.dmaWrite stream)) :
    Triple (With d (d.Spared w₀)) (dmaWrite stream) (fun _ => With d (d.Spared w₀))
      (With d (d.Shaken w₀)) := by
  cases stream with
  | nil =>
    exact (triple_openWith fun _ h => h.shaken).bind fun _ => Triple.pure fun _ h => h
  | cons byte rest =>
    have hsends : Sends d (byte :: rest) d.Kept d.Kept d.Grounded :=
      sends_kept hd fun queued instr hq hi => hc.supplied instr ⟨queued, hq, hi⟩
    exact hsends.followed hd (List.cons_ne_nil byte rest) (follows_kept _ _)
      (fun _ h => h.elim id id) (fun _ _ _ => trivial) (fun _ _ _ => trivial)
      (fun _ hw => Driver.Spared.shaken hw) (fun _ hw => hw) (keeps_release_shaken hd)

theorem triple_simple_kept {op : Operation} (hc : d.Careful op) (hs : op.Simple)
    (hwaits : ∀ stream, op ≠ .executeStream stream) :
    Triple (With d (d.Spared w₀)) (perform op) (fun _ => With d (d.Spared w₀))
      (With d (d.Shaken w₀)) := by
  have hE : ∀ w, d.Spared w₀ w → d.Shaken w₀ w := fun _ h => h.shaken
  cases op with
  | write bank address values =>
    refine triple_accessWith hE (f := fun m => m.write address values) ?_
    rw [hd.mem bank]
    refine triple_writeOver hE fun bytes offset hb ho =>
      triple_writeChunked_kept hd fun row hrow => ?_
    rintro rfl i hlo hhi
    have hoffset : address.val.toNat * d.arch.units.scalarBytes.toNat = offset.val.toNat :=
      AddressUnits.bytes_eq_ok_iff.mp ho
    rw [toNat_scalarBytes] at hoffset
    rw [← hoffset] at hlo hhi
    rw [DataType.length_toBytes hb] at hhi
    exact hc.rows row hrow i ⟨hlo, hhi⟩
  | writeBytes bank offset bytes =>
    refine triple_accessWith hE (f := fun m => m.writeBytes offset bytes) ?_
    rw [hd.mem bank]
    refine triple_writeBytesOver hE (triple_writeChunked_kept hd fun row hrow => ?_)
    rintro rfl i hlo hhi
    exact hc.rows row hrow i ⟨hlo, hhi⟩
  | read bank address length =>
    exact (triple_accessWith hE (f := fun m => m.read address length)
      (loadable_kept hd _ _)).bind fun _ => Triple.pure fun _ h => h
  | compare bank address expected =>
    exact (triple_accessWith hE (f := fun m => m.compare address expected)
      (loadable_kept hd).compare).bind fun _ => Triple.pure fun _ h => h
  | dmaWrite stream => exact triple_dmaWrite_kept hd hc
  | executeStream stream => exact absurd rfl (hwaits stream)
  | writeInstructions | executeProgram | flush | configure | loadConsts | loadModel | run | close =>
    exact hs.elim

end Driving

end Calls

section Arm

variable {d : Driver} (hd : d.Sound)
include hd

theorem triple_grounded {K : Machine → Prop} (hK : ∀ m instr t, K m →
      ¬ WritesDram0 instr d.source → d.banks.Next instr m t → K t) :
    Triple (fun m => d.Grounded m ∧ K m) Machine.executeNext (fun _ m => d.Grounded m ∧ K m)
      d.Grounded := by
  refine (Triple.and (keeps_grounded hd) ((Banks.steady_ready hd.fit).step
    (J := fun m => (∀ instr ∈ m.device.queue, ¬ WritesDram0 instr d.source) ∧ K m)
    (E := fun _ => True) ?_ fun _ _ _ _ _ _ _ _ => trivial)).weaken
    (fun m h => ⟨h.1, h.1.1, h.1.2, h.2⟩) (fun _ _ h => ⟨h.1, h.2.2.2⟩) fun _ h => h.1
  rintro m instr t _ ⟨hs, hk⟩ hq _ hnext
  exact ⟨fun j hj => hs j (hq ▸ List.mem_cons_of_mem _ hj),
    hK m instr t hk (hs instr (hq ▸ List.mem_cons_self ..)) hnext⟩

theorem triple_shows_source {bytes : List UInt8} (hl : bytes.length = d.arch.rowBytes) {n : Nat} :
    Triple (fun m => d.Grounded m ∧
        d.banks.Shows (d.source.toNat * d.arch.rowBytes) bytes n m) Machine.executeNext
      (fun _ m => d.Grounded m ∧ d.banks.Shows (d.source.toNat * d.arch.rowBytes) bytes n m)
      d.Grounded := by
  refine triple_grounded hd fun m instr t hshows hs hnext =>
    hshows.of_next hnext fun row hw i hlo hhi he => hs ?_
  have hrow : i / d.arch.rowBytes = d.source.toNat :=
    Nat.div_eq_of_lt_le hlo (by rw [Nat.succ_mul]; omega)
  have hsource : row = d.source := UInt64.toNat_inj.mp (he.symm.trans hrow)
  exact hsource ▸ hw

theorem triple_arm_stamped :
    Triple (Probing.On d d.Grounded) (Probing.arm (d.mem .dram0))
      (fun _ => Probing.On d.next fun m => d.next.Grounded m ∧ d.next.Stamped d.next.source m)
      (fun s => Probing.On d d.Grounded s ∨ Probing.On d.next d.Grounded s) := by
  have hsource := hd.toNat_source
  refine (triple_arm hd
    (I := fun bytes n m => d.Grounded m ∧
      d.banks.Shows (d.source.toNat * d.arch.rowBytes) bytes n m)
    (J := fun bytes _ _ m => d.Grounded m ∧
      d.banks.Shows (d.source.toNat * d.arch.rowBytes) bytes bytes.length m)
    (fun bytes hb => ⟨⟨?_, fun _ => triple_shows_source hd hb.length, fun _ _ h => h.1, ?_⟩,
      fun _ h => ⟨h, Banks.shows_zero⟩⟩)
    (fun bytes zeros hb hz =>
      ⟨⟨?_, fun _ => triple_shows_source hd hb.length, fun _ _ h => h.1, ?_⟩,
      fun _ h => h⟩) fun _ h => h).relax fun _ s hs => hs.mono ?_
  · rintro n chunk position m ⟨hg, hshows⟩ _ hc ho _ hfit
    exact ⟨hg.memory (hg.1.hold.write ..), hshows.fill (by omega) ho hc⟩
  · exact fun _ m h => h.1.1.hold.apart.length_bytes_lt _
  · rintro n chunk position m ⟨hg, hshows⟩ hn _ ho _ hfit
    refine ⟨hg.memory (hg.1.hold.write ..), hshows.write (by omega) fun _ i hi _ => ?_⟩
    have hlen := hz.length
    rw [hsource, Nat.succ_mul] at hi
    omega
  · exact fun _ m h => h.1.1.hold.apart.length_bytes_lt _
  · rintro m ⟨bytes, zeros, hb, _, hg, hshows⟩
    refine ⟨hg, ?_⟩
    have hrow : d.banks.row m .dram0 d.source = bytes := by
      have hw := hshows.window
      rwa [hb.length] at hw
    exact (congrArg _ hrow).trans (DataType.ofBytes_toBytes hb)

omit hd in
theorem triple_arm_pattern {m : Mem} :
    Triple (fun s : Probing (Switch Simulator) => s.probe = d.probe) (Probing.arm m)
      (fun _ _ => d.next.probe.pattern =
        .ok (List.replicate d.probe.arraySize.toNat d.next.probe.stamp)) fun _ => True := by
  refine Triple.bind (Q := fun _ s => s.probe = d.probe) (Triple.view fun _ h => h) fun p => ?_
  refine Triple.bind (Q := fun _ s => s.probe = d.probe)
    (Triple.require (fun _ _ h => h) fun _ _ _ => trivial) fun _ => ?_
  refine Triple.bind (Q := fun _ s => s.probe = d.next.probe)
    (Triple.update fun s hs => ?_) fun _ => ?_
  · change s.probe.advance = _
    rw [hs]
    rfl
  refine Triple.bind (Q := fun p _ => p = d.next.probe ∧ True)
    (Triple.view fun _ h => ⟨h, trivial⟩) fun p => Triple.assume fun hp => ?_
  refine Triple.bind (Q := fun pattern _ => p.pattern = .ok pattern ∧ True)
    (triple_ofSpec (fun _ _ h _ => ⟨h, trivial⟩) fun _ _ => trivial) fun pattern =>
    Triple.assume fun hpattern => ?_
  rw [hp] at hpattern
  have hrow : pattern = List.replicate d.probe.arraySize.toNat d.next.probe.stamp :=
    Probe.row_eq_ok hpattern
  rw [hrow] at hpattern
  exact Triple.of_run (fun _ _ _ _ _ => hpattern) fun _ _ _ _ _ => trivial

end Arm

section Wait

variable {d : Driver} (hd : d.Sound) {w₀ : Switch Simulator}
include hd

namespace Probing

theorem triple_isObserved_kept :
    Triple (With d (d.Spared w₀)) (isObserved (d.mem .dram0)) (fun _ => With d (d.Spared w₀))
      (With d (d.Shaken w₀)) := by
  have hE : ∀ s, With d (d.Spared w₀) s → With d (d.Shaken w₀) s := fun _ h => ⟨h.1, h.2.shaken⟩
  refine Triple.viewed fun _ => (triple_checkSpec hE).bind fun _ => ?_
  exact (triple_checkSpec hE).bind fun _ => triple_with (loadable_kept hd).compare

theorem triple_poll_kept {polls more : Nat} :
    Triple (With d (d.Spared w₀)) (poll (d.mem .dram0) polls more)
      (fun _ => With (d.probing d.probe.generation false)
        ((d.probing d.probe.generation false).Spared w₀)) (With d (d.Shaken w₀)) := by
  induction more generalizing polls with
  | zero => exact Triple.fail fun _ h => ⟨h.1, h.2.shaken⟩
  | succ more ih =>
    refine (triple_isObserved_kept hd).bind fun seen => ?_
    cases seen with
    | false => exact ih
    | true =>
      refine Triple.bind (Triple.update fun s hs => ?_) fun _ => Triple.pure fun _ h => h
      refine ⟨?_, hs.2.1, hs.2.2.mono fun m hm => ?_⟩
      · change { s.probe with outstanding := false } = _
        rw [hs.1]
        rfl
      · exact Driver.Grounded.idle (d := d.probing _ _) hm.1 rfl

theorem triple_wait_kept (hp : d.probe.pattern = .ok d.stamps) {policy : FlushPolicy} :
    Triple (With d fun w => Watched w₀ (fun _ => True) w ∧
        Sim.On d.layout (fun m => d.Grounded m ∧ d.Delivering m) w) (wait (d.mem .dram0) policy)
      (fun _ => With (d.probing d.probe.generation false)
        ((d.probing d.probe.generation false).Spared w₀))
      (With (d.probing d.probe.generation true)
        ((d.probing d.probe.generation true).Shaken w₀)) := by
  let e := d.probing d.probe.generation true
  refine Triple.bind (Q := fun _ => With e (e.Spared w₀)) (Triple.update fun s hs => ?_)
    fun _ => Triple.viewed fun _ => triple_poll_kept (d := e) (hd.probing ..)
  refine ⟨?_, hs.2.1, hs.2.2.mono fun m hm => ⟨hm.1, fun _ => ⟨hp, hm.2.update true d.loaded⟩⟩⟩
  change { s.probe with outstanding := true } = _
  rw [hs.1]
  rfl

theorem triple_settle_kept {policy : FlushPolicy} :
    Triple (With d (d.Spared w₀)) (settle (d.mem .dram0) policy)
      (fun _ => With (d.probing d.probe.generation false)
        ((d.probing d.probe.generation false).Spared w₀))
      (With (d.probing d.probe.generation true)
        ((d.probing d.probe.generation true).Shaken w₀)) := by
  refine Triple.bind (Q := fun p s => p = d.probe ∧ With d (d.Spared w₀) s)
    (Triple.view fun _ hs => ⟨hs.1, hs⟩) fun p => Triple.assume fun hp => ?_
  subst hp
  split
  · rename_i ho
    refine Triple.bind ?_ fun _ => Triple.pure fun _ h => h
    refine Triple.strengthen (P := fun s => d.probe.pattern = .ok d.stamps ∧
      With d (fun w => Watched w₀ (fun _ => True) w ∧
        Sim.On d.layout (fun m => d.Grounded m ∧ d.Delivering m) w) s)
      (Triple.assume fun hpattern => triple_wait_kept hd hpattern) fun s hs => ?_
    have hm := hs.2.2.remote.machine.2 ho
    exact ⟨hm.1, hs.1, hs.2.1, hs.2.2.mono fun _ hm => ⟨hm.1, (hm.2 ho).2⟩⟩
  · rename_i ho
    have hself : d.probing d.probe.generation false = d := by
      rw [← Bool.eq_false_iff.mpr ho]
      rfl
    rw [hself]
    exact Triple.pure fun _ h => h

end Probing

namespace Driving

theorem triple_arm_kept :
    Triple (On d d.Kept) (onProbe (Probing.arm (d.mem .dram0)))
      (fun _ h => (d.next.probe.outstanding = false ∧ d.next.probe.pattern = .ok d.next.stamps) ∧
        On d.next (fun m => d.next.Grounded m ∧ d.next.Stamped d.next.source m) h)
      (OnAny d Driver.Kept) := by
  cases ho : d.probe.outstanding with
  | true =>
    intro s hs
    rw [onProbe_run, Probing.arm_run_outstanding (by rw [hs.driver, ho])]
    exact hs.any
  | false =>
    have hboth := triple_onProbe (((triple_arm_stamped hd).and
      (triple_arm_pattern (d := d) (m := d.mem .dram0))).strengthen fun s hs => ⟨hs, hs.probe⟩)
    have hkept : ∀ {e : Driver} {s : Driving (Switch Simulator)}, e.probe.outstanding = false →
        On e e.Grounded s → On e e.Kept s := fun he hs => hs.mono fun _ hm => hm.idle he
    refine hboth.weaken (fun s hs => hs.mono fun _ hm => hm.1) (fun _ s hs => ?_) fun s hs => ?_
    · obtain ⟨probe, he, hon, hp⟩ := hs
      refine ⟨⟨ho, ?_⟩, Around.on ⟨probe, he, hon⟩⟩
      rw [hp, hd.arraySize]
      rfl
    · obtain ⟨probe, he, hon | hon, _⟩ := hs
      · exact ⟨d.probe.generation, d.probe.outstanding, hkept ho (Around.on ⟨probe, he, hon⟩)⟩
      · exact ⟨d.probe.generation + 1, d.probe.outstanding,
          hkept ho (Around.on ⟨probe, he, hon⟩)⟩

theorem sends_stamped {stream probe : List UInt8} (hc : d.Careful (.executeStream stream))
    (hm : stream.length % d.layout.instructionBytes = 0)
    (hp : Tcu.assemble d.layout d.probe.instructions = .ok probe) :
    Sends d (stream ++ probe) (fun m => d.Grounded m ∧ d.Stamped d.source m)
      (fun m => d.Grounded m ∧ d.Delivering m) d.Grounded where
  ready m h := h.elim (·.1.1) fun h => h.elim (·.1.1) (·.1)
  beside m memory ha hb := by
    have hg : d.Grounded m → d.Grounded { m with memory } := fun h =>
      h.memory (h.1.hold.beside hd.staging ha hb)
    exact ⟨fun h => ⟨hg h.1, h.2.of_row (Banks.row_beside hd.staging hb)⟩,
      fun h => ⟨hg h.1, h.2.memory fun _ _ => Banks.row_beside hd.staging hb⟩, hg⟩
  send m queued h hq := by
    obtain ⟨program, hprogram, rfl⟩ := instructions_probe hd hm hp hq
    have hsupplied := fun instr hi => hc.supplied instr ⟨program, hprogram, hi⟩
    have hprobe : ∀ instr ∈ d.probe.instructions, ¬ WritesDram0 instr d.source := by
      intro instr hi
      rcases List.mem_cons.mp hi with rfl | hi
      · exact not_writesDram0_fetch
      · rw [List.mem_singleton.mp hi]
        intro hw
        have hrow := hd.toNat_source
        rw [writesDram0_carry_iff.mp hw] at hrow
        omega
    have hqueue : m.device.queue ++ (program ++ d.probe.instructions) =
        (m.device.queue ++ program) ++ d.fetch :: d.carry :: [] := (List.append_assoc ..).symm
    refine ⟨h.1.send fun instr hi => ?_, .queued hqueue h.2 fun _ hi => nomatch hi⟩
    rcases List.mem_append.mp hi with hi | hi
    · exact ⟨(hsupplied instr hi).1 _ (.inl rfl), (hsupplied instr hi).2⟩
    · exact ⟨hprobe instr hi, not_configuresBank_probe instr hi⟩
  wait := triple_grounded hd fun _ _ _ hs hn hnext => hs.of_row (hnext.spares.row_eq hn)
  work := triple_delivering hd
  keep := keeps_grounded hd
  stop _ h := h.elim (·.1) (·.1)

def Undisturbed (d : Driver) (w₀ : Switch Simulator) (h : Driving (Switch Simulator)) : Prop :=
  OnAny d Driver.Kept h ∧ Watched w₀ (fun _ => True) h.remote

/-- The unit has faulted since an earlier state, and a probe is taken to be under way. -/
def Lost (w₀ : Switch Simulator) (h : Driving (Switch Simulator)) : Prop :=
  h.driver.probe.outstanding = true ∧ Faulted w₀ h.remote

variable {h : Driving (Switch Simulator)} {generation : Nat} {outstanding : Bool}

omit hd in
theorem undisturbed_of_spared (hs : With (d.probing generation outstanding)
    ((d.probing generation outstanding).Spared w₀) h) : Undisturbed d w₀ h :=
  ⟨⟨generation, outstanding, hs.1, hs.2.2⟩, hs.2.1⟩

omit hd in
/-- A fault does no harm while no probe is under way. -/
theorem undisturbed_or_lost (hs : With (d.probing generation outstanding)
    ((d.probing generation outstanding).Shaken w₀) h) : Undisturbed d w₀ h ∨ Lost w₀ h := by
  obtain ⟨hdriver, hwatched, hk | ⟨hf, hg⟩⟩ := hs
  · exact .inl ⟨⟨generation, outstanding, hdriver, hk⟩, hwatched⟩
  · cases outstanding with
    | false =>
      exact .inl ⟨⟨generation, false, hdriver, hg.mono fun _ hm => hm.idle rfl⟩, hwatched⟩
    | true => exact .inr ⟨by rw [hdriver]; rfl, hf⟩

theorem triple_executeStream_kept {stream : List UInt8} (hc : d.Careful (.executeStream stream)) :
    Triple (With d (d.Spared w₀)) (executeStream stream) (fun _ => Undisturbed d w₀)
      fun h => Undisturbed d w₀ h ∨ Lost w₀ h := by
  let e := d.probing d.probe.generation false
  have he : e.Sound := hd.probing ..
  have hn : e.next.Sound := he.probing ..
  have hc' : e.next.Careful (.executeStream stream) := ⟨hc.rows, hc.supplied⟩
  -- until the wait begins no probe is under way, and a fault does no harm
  have hidle : ∀ {f : Driver} {h : Driving (Switch Simulator)}, f = e ∨ f = e.next →
      Watched w₀ (fun _ => True) h.remote → On f f.Grounded h → Undisturbed d w₀ h := by
    rintro f h hf hw hon
    refine ⟨?_, hw⟩
    rcases hf with rfl | rfl
    · exact ⟨_, _, hon.driver, hon.remote.mono fun m hm => Driver.Grounded.idle (d := e) hm rfl⟩
    · exact ⟨_, _, hon.driver, hon.remote.mono fun m hm =>
        Driver.Grounded.idle (d := e.next) hm rfl⟩
  refine triple_executeStream (d := d) (R := With e (e.Spared w₀))
    (S := fun h => Watched w₀ (fun _ => True) h.remote ∧
      e.next.probe.pattern = .ok e.next.stamps ∧
      On e.next (fun m => e.next.Grounded m ∧ e.next.Stamped e.next.source m) h)
    (T := fun h => e.next.probe.pattern = .ok e.next.stamps ∧
      With e.next (fun w => Watched w₀ (fun _ => True) w ∧
        Sim.On d.layout (fun m => e.next.Grounded m ∧ e.next.Delivering m) w) h)
    ?_ ?_ ?_ ?_ (fun probe hm hp => ?_) ?_
  · rintro h (hs | ⟨_, _, hs⟩)
    · exact ⟨_, _, hs.1⟩
    · exact ⟨_, _, hs.driver⟩
  · rintro h (hs | ⟨hw, _, hs⟩)
    · exact .inl ⟨⟨_, _, hs.1, hs.2.2⟩, hs.2.1⟩
    · exact .inl (hidle (.inr rfl) hw (hs.mono fun _ hm => hm.1))
  · exact (triple_probeWith (Probing.triple_settle_kept hd)).weaken (fun _ h => h)
      (fun _ _ h => h.with) fun _ h => undisturbed_or_lost h.with
  · have hwatched : Keeps (Over e (Watched w₀ fun _ => True)) (onProbe (Probing.arm e.dram0)) :=
      triple_probeOver (Probing.triple_armOver (fun _ h => h)
        (Writable.storable (fun _ h => h) fun _ _ => keeps_watched))
    refine ((triple_arm_kept he).and hwatched).weaken (fun h hs => ?_) (fun _ h hs => ?_)
      fun h hs => ?_
    · exact ⟨⟨hs.1, hs.2.2⟩, ⟨_, _, hs.1⟩, hs.2.1⟩
    · exact ⟨hs.2.2, hs.1.1.2, hs.1.2⟩
    · exact .inl ⟨hs.1, hs.2.2⟩
  · have hsends := sends_stamped hn hc' hm hp
    have hsent := triple_dmaWrite (hsends.submits hn) (append_probe_ne_nil hn hp)
      (A := fun m => e.next.Grounded m ∧ e.next.Stamped e.next.source m) (fun _ h _ => h)
      fun _ h => h.1
    refine Triple.strengthen (P := fun h => e.next.probe.pattern = .ok e.next.stamps ∧
      On e.next (fun m => e.next.Grounded m ∧ e.next.Stamped e.next.source m) h ∧
      Over e.next (Watched w₀ fun _ => True) h) (Triple.assume fun hpattern => ?_)
      fun h hs => ⟨hs.2.1, hs.2.2, ⟨_, _, hs.2.2.driver⟩, hs.1⟩
    refine (hsent.and (keeps_dmaWrite_of_calls (fun _ => keeps_watched) _)).weaken (fun _ h => h)
      (fun _ h hs => ?_) fun h hs => ?_
    · exact ⟨hpattern, hs.1.driver, hs.2.2, hs.1.remote.mono fun _ hm => hm.1⟩
    · exact .inl (hidle (.inr rfl) hs.2.2 hs.1)
  · refine Triple.assume fun hpattern => ?_
    exact (triple_probeWith (d := e.next) (Probing.triple_wait_kept hn hpattern)).weaken
      (fun _ h => h) (fun _ _ h => undisturbed_of_spared h.with)
      fun _ h => undisturbed_or_lost h.with

theorem keepsOr_kept_simple {op : Operation} (hc : d.Careful op) (hs : op.Simple) :
    KeepsOr (Undisturbed d w₀) (fun _ => Lost w₀) (perform op) := by
  rintro s ⟨⟨generation, outstanding, hk⟩, hw⟩
  have hd' : (d.probing generation outstanding).Sound := hd.probing ..
  have hc' : (d.probing generation outstanding).Careful op := ⟨hc.rows, hc.supplied⟩
  have hspared : With (d.probing generation outstanding)
      ((d.probing generation outstanding).Spared w₀) s := ⟨hk.driver, hw, hk.remote⟩
  by_cases hwaits : ∃ stream, op = .executeStream stream
  · obtain ⟨stream, rfl⟩ := hwaits
    have hstream : Triple _ (perform (.executeStream stream)) (fun _ => Undisturbed d w₀)
        fun h => Undisturbed d w₀ h ∨ Lost w₀ h :=
      (triple_executeStream_kept hd' hc').bind fun _ => Triple.pure fun _ h => h
    exact hstream.ends s hspared
  · have hsimple : Triple (With _ (Driver.Spared _ w₀)) (perform op) _ _ :=
      triple_simple_kept hd' hc' hs fun stream he => hwaits ⟨stream, he⟩
    exact (hsimple.weaken (fun _ h => h) (fun _ _ h => undisturbed_of_spared h)
      fun _ h => undisturbed_or_lost h).ends s hspared

end Driving

end Wait

namespace Driving

variable {h : Driving (Switch Simulator)}

/-- The unit faults in a call of the operation, and behind it a probe is taken to be under way. -/
def Loses (h : Driving (Switch Simulator)) (op : Operation) : Prop :=
  (h.after op).driver.probe.outstanding = true ∧ ∃ m ∈ h.moments op, m.Faulting

theorem kept_load {d : Driver} {m : Machine} (loaded : LoadedModel) (hk : d.Kept m) :
    ({ d with loaded := some loaded } : Driver).Kept m :=
  ⟨hk.1, fun ho => ⟨(hk.2 ho).1, (hk.2 ho).2.update d.probe.outstanding (some loaded)⟩⟩

theorem Standing.kept_after (hs : h.Standing Driver.Kept) {op : Operation}
    (hc : h.driver.Careful op) (hl : ¬ h.Loses op) (hop : op ≠ .close) :
    (h.after op).Standing Driver.Kept := by
  refine (hs.after (I := Undisturbed h.driver h.remote) (fun _ h => h.1) ⟨hs.on.any, watched_refl⟩
    (fun _ _ ha hm => ha.part hs.sound hs.placed hm)
    (fun _ hsimple ha => keepsOr_kept_simple hs.sound ha hsimple)
    (fun _ _ loaded => kept_load loaded) hc hop).resolve_right ?_
  exact fun ⟨_, _, hlost⟩ => hl hlost

end Driving

/-- As long as every call reaches the instance, the probe rows are left alone and the unit does not
fault in an operation that leaves a probe under way, an open driver waits for a stamp that is
delivered. -/
theorem Unhindered.kept {h : Driving (Switch Simulator)}
    (hu : Unhindered (fun h op => h.driver.Careful op ∧ ¬ h.Loses op) h) :
    h.Closed ∨ h.Standing Driver.Kept := by
  induction hu with
  | start fresh _ =>
    obtain ⟨hd, hp, hon⟩ := fresh.fresh
    refine .inr ⟨hd, hp, hon.mono fun m hm => Driver.Grounded.idle ⟨hm.2.1, fun _ hi => ?_⟩ hm.1⟩
    rw [hm.2.2.2 rfl] at hi
    cases hi
  | @perform h op _ allowed ih =>
    rcases ih with hc | hs
    · rw [Driving.after_closed hc]
      exact .inl hc
    · by_cases hop : op = .close
      · exact .inl (hop ▸ h.closed_close)
      · exact .inr (hs.kept_after allowed.1 allowed.2 hop)
  | tune _ _ _ _ ih => exact ih.imp id (·.tune ..)

theorem Driver.Delivering.arrives {d : Driver} {m : Machine} (h : d.Delivering m) :
    d.carry ∈ m.device.queue ∨ d.Stamped d.target m := by
  cases h with
  | queued queue _ _ =>
    rw [queue]
    exact .inl (List.mem_append_right _ (List.mem_cons_of_mem _ (List.mem_cons_self ..)))
  | fetched queue _ _ =>
    rw [queue]
    exact .inl (List.mem_cons_self ..)
  | delivered _ stamped => exact .inr stamped

/-- The stamp of a probe that is under way is being delivered: the move that writes the target row
is queued, or the row holds the pattern. -/
theorem probe_delivered {h : Driving (Switch Simulator)}
    (hu : Unhindered (fun h op => h.driver.Careful op ∧ ¬ h.Loses op) h)
    (hc : h.driver.closed = false) (ho : h.driver.probe.outstanding = true) :
    h.driver.Delivering h.machine ∧ ∃ pattern, h.driver.probe.pattern = .ok pattern ∧
      (h.driver.carry ∈ h.device.queue ∨
        h.driver.arch.dataType.ofBytes
          (h.driver.banks.row h.machine .dram0 h.driver.target) = pattern) := by
  have hs : h.Standing Driver.Kept :=
    hu.kept.resolve_left fun hf => Bool.false_ne_true (hc.symm.trans hf)
  obtain ⟨hp, hd⟩ := hs.on.remote.remote.machine.2 ho
  exact ⟨hd, _, hp, hd.arrives⟩

section Small

theorem careful_flush (d : Driver) : d.Careful .flush :=
  ⟨fun _ _ _ hi => hi.elim, fun _ hi => hi.elim⟩

theorem careful_stray (d : Driver) : d.Careful (.write .dram1 ⟨99⟩ [1]) :=
  ⟨fun _ _ _ hi => hi.elim, fun _ hi => hi.elim⟩

def behindFlush (h : Driving (Switch Simulator)) : Driving (Switch Simulator) :=
  (h.tune true none none).after .flush

/-- The probe is under way while a stream of a single byte and then a row that is not there are
refused. -/
theorem probe_delivered_behindFlush :
    ∃ h : Driving (Switch Simulator),
      ((Driving.perform (.dmaWrite [0])).run h).1 =
        .error (.remote (.device (.partialStream 1 4))) ∧
      ((Driving.perform (.write .dram1 ⟨99⟩ [1])).run (h.after (.dmaWrite [0]))).1.isOk = false ∧
      let h := (h.after (.dmaWrite [0])).after (.write .dram1 ⟨99⟩ [1])
      Unhindered (fun h op => h.driver.Careful op ∧ ¬ h.Loses op) h ∧
      h.driver.closed = false ∧ h.driver.probe.outstanding = true ∧
      h.driver.Delivering h.machine ∧ ∃ pattern, h.driver.probe.pattern = .ok pattern ∧
        (h.driver.carry ∈ h.device.queue ∨
          h.driver.arch.dataType.ofBytes
            (h.driver.banks.row h.machine .dram0 h.driver.target) = pattern) := by
  obtain ⟨start, hs⟩ := exists_smallStart
  have hfacts : ∀ h ∈ smallStart, (h.tune true none none).remote.plan.calls = [] ∧
      ((h.tune true none none).moments .flush).isEmpty = true ∧
      (Simulator.instructions (behindFlush h).driver.layout [0]).isOk = false ∧
      ((Driving.perform (.dmaWrite [0])).run (behindFlush h)).1 =
        .error (.remote (.device (.partialStream 1 4))) ∧
      ((behindFlush h).moments (.dmaWrite [0])).isEmpty = true ∧
      ((Driving.perform (.write .dram1 ⟨99⟩ [1])).run
        ((behindFlush h).after (.dmaWrite [0]))).1.isOk = false ∧
      (((behindFlush h).after (.dmaWrite [0])).moments (.write .dram1 ⟨99⟩ [1])).isEmpty = true ∧
      (((behindFlush h).after (.dmaWrite [0])).after (.write .dram1 ⟨99⟩ [1])).driver.closed =
        false ∧
      (((behindFlush h).after (.dmaWrite [0])).after
        (.write .dram1 ⟨99⟩ [1])).driver.probe.outstanding = true := by decide +kernel
  obtain ⟨hdirect, hflush, hnone, hrefused, hsent, hstray, hwritten, hc, ho⟩ := hfacts start hs
  have hkept : ∀ {h : Driving (Switch Simulator)} {op : Operation},
      (h.moments op).isEmpty = true → ¬ h.Loses op := by
    rintro h op he ⟨-, m, hm, -⟩
    rw [List.isEmpty_iff.mp he] at hm
    cases hm
  have hcareful : (behindFlush start).driver.Careful (.dmaWrite [0]) := by
    refine ⟨fun _ _ _ hi => hi.elim, ?_⟩
    rintro instr ⟨program, hp, -⟩
    rw [hp] at hnone
    cases hnone
  have hu : Unhindered (fun h op => h.driver.Careful op ∧ ¬ h.Loses op)
      (((behindFlush start).after (.dmaWrite [0])).after (.write .dram1 ⟨99⟩ [1])) := by
    have hstart := Unhindered.start (A := fun h op => h.driver.Careful op ∧ ¬ h.Loses op)
      (.tune true none none (reached_smallStart hs)) hdirect
    exact .perform (.perform (.perform hstart ⟨careful_flush _, hkept hflush⟩)
      ⟨hcareful, hkept hsent⟩) ⟨careful_stray _, hkept hwritten⟩
  exact ⟨behindFlush start, hrefused, hstray, hu, hc, ho, probe_delivered hu hc ho⟩

def faulted (h : Driving (Switch Simulator)) : Driving (Switch Simulator) :=
  (h.tune false (some 1) none).after
    (.executeProgram [.noOp, .noOp, .matMul false false ⟨0, 0⟩ ⟨0, 0⟩ 0])

/-- A fault that shows up while the stamp is waited for leaves the driver waiting for a stamp that
is neither queued nor there. -/
theorem probe_undelivered :
    ∃ h : Driving (Switch Simulator), Unhindered (fun h op => h.driver.Careful op) h ∧
      h.driver.closed = false ∧ h.driver.probe.outstanding = true ∧ h.device.queue = [] ∧
      ∃ pattern, h.driver.probe.pattern = .ok pattern ∧
        h.driver.arch.dataType.ofBytes
          (h.driver.banks.row h.machine .dram0 h.driver.target) ≠ pattern := by
  obtain ⟨start, hs⟩ := exists_smallStart
  have hfacts : ∀ h ∈ smallStart, (h.tune false (some 1) none).remote.plan.calls = [] ∧
      (faulted h).driver.closed = false ∧ (faulted h).driver.probe.outstanding = true ∧
      (faulted h).device.queue = [] ∧ (faulted h).driver.probe.pattern = .ok [2] ∧
      (faulted h).driver.arch.dataType.ofBytes ((faulted h).driver.banks.row (faulted h).machine
        .dram0 (faulted h).driver.target) = [0] := by decide +kernel
  obtain ⟨hdirect, hc, ho, hq, hp, hz⟩ := hfacts start hs
  have hcareful : ∀ d : Driver, d.Careful
      (.executeProgram [.noOp, .noOp, .matMul false false ⟨0, 0⟩ ⟨0, 0⟩ 0]) := by
    refine fun d => ⟨fun _ _ _ hi => hi.elim, fun instr hi => ?_⟩
    rcases List.mem_cons.mp hi with rfl | hi
    · exact ⟨fun _ _ => id, id⟩
    rcases List.mem_cons.mp hi with rfl | hi
    · exact ⟨fun _ _ => id, id⟩
    · rw [List.mem_singleton.mp hi]
      exact ⟨fun _ _ => id, id⟩
  refine ⟨_, .perform (.start (.tune _ _ _ (reached_smallStart hs)) hdirect) (hcareful _), hc, ho,
    hq, _, hp, fun he => ?_⟩
  have hne := hz.symm.trans he
  cases hne

end Small

end TensorUnit.Host
