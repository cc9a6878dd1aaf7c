import TensorUnit.Host.Operation
import TensorUnit.Proofs.Host.Flush

namespace TensorUnit.Host

open TensorUnit.Action (Triple Keeps)
open Remote Sim
open Tcu (Instruction)

namespace Driver

variable (d : Driver)

/-- Some bytes from an offset of a bank on that are not in the target row. -/
def Avoids (bank : Bank) (start length : Nat) : Prop :=
  bank = .dram0 → ∀ i, start ≤ i → i < start + length → i / d.arch.rowBytes ≠ d.target.toNat

/-- A program that does not write the target row and does not say where the banks are. -/
def Tame (program : List Instruction) : Prop :=
  ∀ instr ∈ program, ¬ WritesDram0 instr d.target ∧ ¬ ConfiguresBank instr

def TameStream (stream : List UInt8) : Prop :=
  ∀ program, Simulator.instructions d.layout stream = .ok program → d.Tame program

def Harmless : Operation → Prop
  | .write bank address values =>
    d.Avoids bank (address.val.toNat * d.arch.dataType.scalarBytes)
      (values.length * d.arch.dataType.scalarBytes)
  | .writeBytes bank offset bytes => d.Avoids bank offset.val.toNat bytes.length
  | .read _ _ _ => True
  | .compare _ _ _ => True
  | .dmaWrite stream => d.TameStream stream
  | .writeInstructions program => d.Tame program
  | .executeProgram program => d.Tame program
  | .executeStream stream => d.TameStream stream
  | .flush => True
  | .configure registers => d.Tame (registers.map fun r => .configure r.1 r.2)
  | .loadConsts _ _ => True
  | .loadModel _ _ => False
  | .run _ => False
  | .close => False

/-- What is known of the machine between two operations. -/
def Good (m : Machine) : Prop :=
  d.Left d.banks.Ready m

end Driver

variable {d : Driver} {m : Machine}

section Machines

theorem Driver.Settled.append (h : d.Settled m) {queued : List Instruction}
    (hq : ∀ instr ∈ queued, ¬ WritesDram0 instr d.target) :
    d.Settled { m with device := m.device.enqueue queued } :=
  fun instr hi => (List.mem_append.mp hi).elim (h instr) (hq instr)

theorem Driver.Pending.append {post : List Instruction} (h : d.Pending post True m)
    (queued : List Instruction) :
    d.Pending (post ++ queued) True { m with device := m.device.enqueue queued } := by
  rcases h with hs | ⟨⟨⟨pre, he, hpre⟩, hc⟩, hx⟩
  · obtain ⟨before, he⟩ := hs
    refine .inl ⟨before, ?_⟩
    rw [← he, List.append_assoc]
    rfl
  · refine .inr ⟨⟨⟨pre, ?_, hpre⟩, hc⟩, hx⟩
    change m.device.queue ++ queued = _
    rw [he, List.append_assoc, List.cons_append]

theorem Driver.Tail.append (h : d.Tail m) {queued : List Instruction}
    (hq : ∀ instr ∈ queued, ¬ WritesDram0 instr d.target) :
    d.Tail { m with device := m.device.enqueue queued } := by
  unfold Tail at h ⊢
  split at h
  · obtain ⟨post, hpost, hpend⟩ := h
    rename_i ho
    rw [if_pos ho]
    refine ⟨post ++ queued, fun instr hi => ?_, hpend.append queued⟩
    exact (List.mem_append.mp hi).elim (hpost instr) (hq instr)
  · rename_i ho
    rw [if_neg ho]
    exact Settled.append h hq

/-- The queue and the target row are all that the tail depends on. -/
theorem Driver.Tail.memory (h : d.Tail m) {memory : Memory}
    (hc : d.Cleared d.arch.rowBytes m → d.Cleared d.arch.rowBytes { m with memory }) :
    d.Tail { m with memory } := by
  unfold Tail at h ⊢
  split at h
  · obtain ⟨post, hpost, hpend⟩ := h
    rename_i ho
    rw [if_pos ho]
    exact ⟨post, hpost, hpend.imp id fun hw => ⟨⟨hw.1.1, hc hw.1.2⟩, hw.2⟩⟩
  · rename_i ho
    rw [if_neg ho]
    exact h

theorem triple_good (hd : d.Sound) :
    Triple d.Good Machine.executeNext (fun _ => d.Good) d.Good := by
  refine Triple.strengthen (P := fun m => ∃ left, d.banks.Ready m ∧ d.Unless left d.Tail m) ?_
    fun m h => ⟨h.2.choose, h.1, h.2.choose_spec⟩
  refine Triple.exists fun left => ?_
  have hB := Banks.steady_ready hd.fit
  exact (triple_unless hB (triple_tail hB)).weaken (fun _ h => h) (fun _ m h => ⟨h.1, left, h.2⟩)
    fun m h => ⟨h.1, left, h.2⟩

theorem Driver.Good.write (h : d.Good m) {name : String} {offset : UInt64} {data : List UInt8}
    (hfit : offset.toNat + data.length ≤ (m.memory.bytes name).length)
    (hout : name = d.banks.name .dram0 → ∀ i, offset.toNat ≤ i → i < offset.toNat + data.length →
      i / d.arch.rowBytes ≠ d.target.toNat) :
    d.Good { m with memory := m.memory.write name offset data } := by
  obtain ⟨hr, left, hl⟩ := h
  refine ⟨Banks.indifferent_ready _ _ hr (hr.hold.write ..), left, hl.write fun ht => ?_⟩
  exact ht.memory fun hc => hc.write hfit hout (Nat.le_refl _)

theorem fills_good (hd : d.Sound) {bank : Bank} {start : Nat} {data : List UInt8}
    (ha : d.Avoids bank start data.length) :
    Fills (d.banks.name bank) start data (fun _ => d.Good) d.Good where
  write n chunk position m h hn _ ho _ hfit := by
    refine h.write (by omega) fun hname i hlo hhi => ha ?_ i (by omega) (by omega)
    by_contra hne
    exact hd.fit.name_ne hne hname
  step _ := triple_good hd
  stop _ _ h := h
  small _ m h := by
    have hl := h.1.hold.length_contents bank
    have hs := h.1.hold.size_lt
    exact hl ▸ hs

theorem reads_good (hd : d.Sound) {name : String} {start total : Nat} :
    Reads name start total (fun _ => d.Good) d.Good where
  read _ _ _ _ h _ := h
  step _ := triple_good hd
  stop _ _ h := h

theorem tameStream_nil (d : Driver) : d.TameStream [] := by
  intro program hp instr hi
  have hl := Simulator.length_instructions hp
  rw [List.length_nil, Nat.zero_div] at hl
  rw [List.eq_nil_of_length_eq_zero hl] at hi
  cases hi

theorem flushable_tame {stream : List UInt8} (ht : d.TameStream stream) :
    Flushable d d.banks.Ready stream := by
  intro program hp
  refine ⟨fun instr hi => (ht program hp instr hi).1, fun m h => ?_⟩
  refine ⟨⟨h.hold.arch, h.hold.cells, h.hold.apart, h.hold.extents⟩,
    h.aimed.append fun instr hi => ?_⟩
  rcases List.mem_append.mp hi with hi | hi
  · exact (ht program hp instr hi).2
  · exact not_configuresBank_probe instr hi

end Machines

section Accesses

variable {α : Type} {bank : Bank} {J E : Machine → Prop} (hE : ∀ m, J m → E m)
include hE

theorem triple_access {f : Mem → Action (Switch Simulator) DriverError α}
    (h : Triple (Sim.On d.layout J) (f (d.mem bank)) (fun _ => Sim.On d.layout J)
      (Sim.On d.layout E)) :
    Triple (Driving.On d J) (do
      Driving.ensureOpen
      let d ← Driving.getDriver
      Driving.onRemote (f (d.mem bank))) (fun _ => Driving.On d J) (Driving.On d E) :=
  (Driving.triple_accessWith (fun _ hs => hs.mono hE) h).weaken
    (fun _ hs => ⟨hs.driver, hs.remote⟩) (fun _ _ hs => ⟨hs.1, hs.2⟩) fun _ hs => ⟨hs.1, hs.2⟩

variable (hd : d.Sound)
include hd

theorem triple_write {address : ScalarAddress} {values : List Int}
    (h : ∀ bytes : List UInt8, bytes.length = values.length * d.arch.dataType.scalarBytes →
      Fills (d.banks.name bank) (address.val.toNat * d.arch.dataType.scalarBytes) bytes
        (fun _ => J) E) :
    Triple (Driving.On d J) (Driving.write bank address values) (fun _ => Driving.On d J)
      (Driving.On d E) := by
  apply triple_access hE (f := fun m => m.write address values)
  rw [hd.mem bank]
  refine (Mem.triple_write (I := fun _ _ => J) (fun bytes hb => ⟨?_, fun _ h => h⟩) hE
    d.config.chunkSize.toNat_lt).relax fun _ w hw => hw.mono fun _ h => h.choose_spec.2
  change Fills _ (address.val.toNat * d.arch.units.scalarBytes.toNat) _ _ _
  rw [toNat_scalarBytes]
  exact h bytes (DataType.length_toBytes hb)

theorem triple_writeBytes {offset : ByteOffset} {bytes : List UInt8}
    (h : Fills (d.banks.name bank) offset.val.toNat bytes (fun _ => J) E) :
    Triple (Driving.On d J) (Driving.writeBytes bank offset bytes) (fun _ => Driving.On d J)
      (Driving.On d E) := by
  apply triple_access hE (f := fun m => m.writeBytes offset bytes)
  rw [hd.mem bank]
  exact Mem.triple_writeBytes (I := fun _ => J) h d.config.chunkSize.toNat_lt

omit hE in
theorem triple_readMem {address : ScalarAddress} {length : UInt64}
    (h : ∀ start total, Reads (d.banks.name bank) start total (fun _ => J) E) :
    Triple (Sim.On d.layout J) ((d.mem bank).read address length) (fun _ => Sim.On d.layout J)
      (Sim.On d.layout E) := by
  rw [hd.mem bank]
  refine (Mem.triple_read (I := fun _ => J) ?_ (h _ _)).relax
    fun _ w hw => hw.mono fun _ h => h.choose_spec.2
  change 0 < d.arch.units.scalarBytes.toNat
  rw [toNat_scalarBytes]
  exact scalarBytes_pos _

omit hE in
theorem triple_compareMem {address : ScalarAddress} {expected : List Int}
    (h : ∀ start total, Reads (d.banks.name bank) start total (fun _ => J) E) :
    Triple (Sim.On d.layout J) ((d.mem bank).compare address expected)
      (fun _ => Sim.On d.layout J) (Sim.On d.layout E) :=
  (triple_readMem hd h).bind fun _ => Triple.pure fun _ h => h

end Accesses

section Operations

variable {α : Type}

def Safe (d : Driver) (a : Driving.Act (Switch Simulator) α) : Prop :=
  Triple (Driving.On d d.Good) a (fun _ => Driving.OnAny d Driver.Good)
    (Driving.OnAny d Driver.Good)

theorem Safe.of_on {a : Driving.Act (Switch Simulator) α}
    (h : Triple (Driving.On d d.Good) a (fun _ => Driving.On d d.Good) (Driving.On d d.Good)) :
    Safe d a :=
  h.weaken (fun _ h => h) (fun _ _ h => h.any) fun _ h => h.any

theorem Safe.discard {a : Driving.Act (Switch Simulator) α} (h : Safe d a) :
    Safe d (do let _ ← a) :=
  Triple.bind h fun _ => Triple.pure fun _ h => h

theorem Safe.view_bind {a : Driving.Act (Switch Simulator) α}
    {f : α → Driving.Act (Switch Simulator) Unit} {P : α → Prop}
    (h : Triple (Driving.On d d.Good) a (fun x s => P x ∧ Driving.On d d.Good s)
      (Driving.On d d.Good)) (hf : ∀ x, P x → Safe d (f x)) : Safe d (a >>= f) :=
  (h.weaken (fun _ h => h) (fun _ _ h => h) fun _ h => h.any).bind fun x =>
    Triple.assume fun hx => hf x hx

variable (hd : d.Sound)
include hd

theorem safe_write {bank : Bank} {address : ScalarAddress} {values : List Int}
    (ha : d.Avoids bank (address.val.toNat * d.arch.dataType.scalarBytes)
      (values.length * d.arch.dataType.scalarBytes)) :
    Safe d (Driving.write bank address values) :=
  Safe.of_on (triple_write (fun _ h => h) hd fun _ hl => fills_good hd (hl ▸ ha))

theorem safe_writeBytes {bank : Bank} {offset : ByteOffset} {bytes : List UInt8}
    (ha : d.Avoids bank offset.val.toNat bytes.length) :
    Safe d (Driving.writeBytes bank offset bytes) :=
  Safe.of_on (triple_writeBytes (fun _ h => h) hd (fills_good hd ha))

theorem safe_read {bank : Bank} {address : ScalarAddress} {length : UInt64} :
    Safe d (Driving.read bank address length) :=
  Safe.of_on (triple_access (fun _ h => h) (f := fun m => m.read address length)
    (triple_readMem hd fun _ _ => reads_good hd))

theorem safe_compare {bank : Bank} {address : ScalarAddress} {expected : List Int} :
    Safe d (Driving.compare bank address expected) :=
  Safe.of_on (triple_access (fun _ h => h) (f := fun m => m.compare address expected)
    (triple_compareMem hd fun _ _ => reads_good hd))

theorem submits_tame {stream : List UInt8} (ht : d.TameStream stream) :
    Driving.Submits d stream (fun m => d.banks.Ready m ∧ d.Tail m)
      (fun m => d.banks.Ready m ∧ d.Tail m) (fun m => d.banks.Ready m ∧ d.Tail m) d.Good where
  apart m h := (h.elim id fun h => h.elim id id).1.hold.apart
  beside m memory ha hb := by
    have hkeep : d.banks.Ready m ∧ d.Tail m →
        d.banks.Ready { m with memory } ∧ d.Tail { m with memory } :=
      fun h => ⟨Banks.indifferent_ready _ _ h.1 (h.1.hold.beside hd.staging ha hb),
        h.2.memory fun hc => hc.beside hd hb⟩
    exact ⟨hkeep, hkeep, hkeep⟩
  send m queued h hq := by
    have htame := ht queued hq
    refine ⟨⟨?_, h.1.aimed.append fun instr hi => (htame instr hi).2⟩,
      h.2.append fun instr hi => (htame instr hi).1⟩
    exact ⟨h.1.hold.arch, h.1.hold.cells, h.1.hold.apart, h.1.hold.extents⟩
  wait _ := (Banks.steady_ready hd.fit).triple_has hd.staging
    (triple_tail (Banks.steady_ready hd.fit))
  work := triple_tail (Banks.steady_ready hd.fit)
  keep := triple_tail (Banks.steady_ready hd.fit)
  stop _ h := h
  fail m h := ⟨h.1, _, rfl, fun _ => h.2⟩
  leak m h hl := ⟨h.1, true, hl, fun hf => (nomatch hf)⟩

theorem safe_dmaWrite {stream : List UInt8} (ht : d.TameStream stream) :
    Safe d (Driving.dmaWrite stream) := by
  cases stream with
  | nil =>
    exact Safe.of_on (Driving.triple_ensureOpen.bind fun _ => Triple.pure fun _ h => h)
  | cons byte rest =>
    refine Safe.of_on ((Driving.triple_dmaWrite (A := d.Good) (submits_tame hd ht)
      (List.cons_ne_nil byte rest) ?_ fun _ h => h).relax fun _ w hw => hw.mono fun m h =>
        ⟨h.1.1, false, h.2, fun _ => h.1.2⟩)
    rintro m ⟨hr, left, hl, ht⟩ hnone
    rw [hnone] at hl
    exact ⟨hr, ht hl.symm⟩

theorem Driver.Tame.stream {program : List Instruction} (ht : d.Tame program)
    {stream : List UInt8} (hs : Tcu.assemble d.layout program = .ok stream) :
    d.TameStream stream := by
  intro queued hq
  rw [(Simulator.instructions_assemble hd.whole hs).1] at hq
  cases hq
  exact ht

theorem safe_writeInstructions {program : List Instruction} (ht : d.Tame program) :
    Safe d (Driving.writeInstructions program) :=
  Safe.view_bind Driving.triple_assemble fun _ hs => safe_dmaWrite hd (ht.stream hd hs)

theorem triple_executeStream_tame {stream : List UInt8} (ht : d.TameStream stream) (c : Nat) :
    Triple (Driving.On d fun m => d.Good m ∧ Counts c m) (Driving.executeStream stream)
      (fun _ h => ∃ generation, Driving.On (d.probing generation false) (fun m =>
        d.banks.Ready m ∧ d.Unless false (fun m => m.device.queue = [] ∧
          m.device.executed = c + stream.length / d.layout.instructionBytes + 2) m) h)
      (Driving.OnAny d Driver.Good) := by
  refine Triple.strengthen (P := fun h => ∃ left, Driving.On d (fun m => d.banks.Ready m ∧
    d.Unless left (fun m => d.Tail m ∧ Counts c m) m) h) ?_ ?_
  · apply Triple.exists
    intro left
    exact triple_flushed hd (Banks.steady_ready hd.fit) Banks.indifferent_ready
      (Banks.steady_ready hd.fit) Banks.indifferent_ready (fun _ h => h) (flushable_tame ht) left c
  · rintro s ⟨hdriver, hplan, hlayout, ⟨hr, left, hl⟩, hc⟩
    exact ⟨left, hdriver, hplan, hlayout, hr, hl.mono fun ht => ⟨ht, hc⟩⟩

theorem safe_executeStream {stream : List UInt8} (ht : d.TameStream stream) :
    Safe d (Driving.executeStream stream) := by
  refine Triple.strengthen (P := fun h => ∃ c, Driving.On d (fun m => d.Good m ∧ Counts c m) h) ?_
    fun s hs =>
      ⟨_, hs.driver, hs.remote.plan, hs.remote.remote.layout, hs.remote.remote.machine, rfl⟩
  refine Triple.exists fun c => (triple_executeStream_tame hd ht c).relax fun _ s hs => ?_
  obtain ⟨generation, hon⟩ := hs
  exact ⟨generation, false, hon.mono fun m h => ⟨h.1, false, h.2.mono fun h =>
    Driver.tail_of_empty h.1⟩⟩

theorem safe_executeProgram {program : List Instruction} (ht : d.Tame program) :
    Safe d (Driving.executeProgram program) :=
  Driving.triple_executeProgram (fun _ h => h.any) fun _ hs =>
    safe_executeStream hd (ht.stream hd hs)

theorem safe_flush : Safe d Driving.flush :=
  safe_executeStream hd (tameStream_nil d)

theorem safe_loadConsts {base : RowAddress} {size : UInt64} :
    Safe d (Driving.loadConsts base size) := by
  unfold Driving.loadConsts
  split
  · exact Safe.of_on (Triple.pure fun _ h => h)
  · refine Safe.view_bind (P := fun _ => True) (Driving.triple_getDriver.relax
      fun _ _ h => ⟨trivial, h.2⟩) fun x _ => ?_
    have hcheck : ∀ {r : Except SpecError Unit}, Triple (Driving.On d d.Good)
        (ofSpec r : Driving.Act (Switch Simulator) Unit)
        (fun _ s => True ∧ Driving.On d d.Good s) (Driving.On d d.Good) :=
      triple_ofSpec (fun _ _ _ h => ⟨trivial, h⟩) fun _ h => h
    refine Safe.view_bind hcheck fun _ _ => Safe.view_bind hcheck fun _ _ => ?_
    refine (safe_executeProgram hd fun instr hi => ?_).discard
    rw [List.mem_singleton.mp hi]
    exact ⟨id, id⟩

theorem safe_perform {op : Operation} (h : d.Harmless op) : Safe d (Driving.perform op) := by
  cases op with
  | write bank address values => exact safe_write hd h
  | writeBytes bank offset bytes => exact safe_writeBytes hd h
  | read bank address length => exact (safe_read hd).discard
  | compare bank address expected => exact (safe_compare hd).discard
  | dmaWrite stream => exact safe_dmaWrite hd h
  | writeInstructions program => exact safe_writeInstructions hd h
  | executeProgram program => exact (safe_executeProgram hd h).discard
  | executeStream stream => exact (safe_executeStream hd h).discard
  | flush => exact (safe_flush hd).discard
  | configure registers => exact (safe_executeProgram hd h).discard
  | loadConsts base size => exact safe_loadConsts hd
  | loadModel | run | close => exact h.elim

end Operations

end TensorUnit.Host
