import TensorUnit.Proofs.Host.Access
import TensorUnit.Proofs.Host.Moments
import TensorUnit.Proofs.Host.Release

namespace TensorUnit.Host

open TensorUnit.Action (Triple Keeps KeepsOr)
open Remote Sim

section Answers

variable {n : Nat}

/-- The instance is up, and gives `n` bytes in a call. -/
def Answers (n : Nat) (w : Switch Simulator) : Prop :=
  w.remote.up = true ∧ n ≤ w.remote.config.maxPayload

theorem Answers.mono {k : Nat} {w : Switch Simulator} (h : Answers n w) (hk : k ≤ n) :
    Answers k w :=
  ⟨h.1, Nat.le_trans hk h.2⟩

theorem keeps_answers (batch : Batch) :
    Keeps (Answers n) (execute batch : Action (Switch Simulator) RemoteError _) :=
  (triple_sent (Simulator.keeps_settings_execute
    (P := fun config up => up = true ∧ n ≤ config.maxPayload) batch)).weaken (fun _ h => h)
      (fun _ _ h => h) fun _ h => h.elim id id

theorem triple_answers {name : String} {offset length : UInt64} :
    Triple (fun _ => True)
      (execute [.bufferRead name offset length] : Action (Switch Simulator) RemoteError _)
      (fun _ => Answers length.toNat) fun _ => True := by
  have hcall : Triple (fun _ : Simulator => True ∧ True)
      (Simulator.execute [.bufferRead name offset length])
      (fun _ s => s.up = true ∧ length.toNat ≤ s.config.maxPayload) fun _ => True ∧ True :=
    (Simulator.triple_up_execute _).and Simulator.triple_payload_read
  exact (triple_sent hcall).weaken (fun _ _ => ⟨trivial, trivial⟩) (fun _ _ h => h)
    fun _ _ => trivial

namespace Mem

variable {m : Mem}

theorem readSize_le {limit : Nat} (h : m.units.scalarBytes.toNat ≤ limit) :
    m.readSize limit ≤ limit :=
  Nat.le_trans (m.readSize_le_max limit) (Nat.max_le.mpr ⟨Nat.le_refl limit, h⟩)

theorem triple_answers_windows {offset : UInt64} {total size : Nat} (ht : total < 2 ^ 64)
    (hn : 0 < min size total) :
    Triple (fun _ => True)
      (m.readWindows offset total size 0 [] (windowCount total size))
      (fun _ => Answers (min size total)) fun _ => True := by
  obtain ⟨count, hc⟩ : ∃ count, windowCount total size = count + 1 := by
    refine Nat.exists_eq_succ_of_ne_zero (Nat.ne_of_gt ?_)
    exact Nat.div_pos (by omega) (by omega)
  have hw : (UInt64.ofNat (min size total)).toNat = min size total :=
    UInt64.toNat_ofNat_of_lt' (by change _ < 2 ^ 64; omega)
  rw [hc]
  refine Triple.bind (Q := fun _ => Answers (min size total)) ?_ fun piece => ?_
  · have hcall : Triple (fun _ => True)
        ((execute [.bufferRead m.name (offset + .ofNat 0) (.ofNat (min size total))]).mapError
          DriverError.remote)
        (fun _ => Answers (UInt64.ofNat (min size total)).toNat) fun _ => True :=
      Triple.mapError triple_answers
    rw [hw] at hcall
    unfold readWindow window
    rw [Nat.zero_mul, Nat.sub_zero]
    refine hcall.bind fun responses => ?_
    split
    · exact Triple.pure fun _ h => h
    · exact Triple.fail fun _ _ => trivial
  · exact Readable.windows (fun _ _ => trivial) fun _ _ =>
      (keeps_answers _).weaken (fun _ h => h) (fun _ _ h => h) fun _ _ => trivial

theorem triple_answers_read {address : ScalarAddress} {length : UInt64}
    (hs : 0 < m.units.scalarBytes.toNat) (hl : 0 < length.toNat) :
    Triple (fun _ => True) (m.read address length)
      (fun _ => Answers m.units.scalarBytes.toNat) fun _ => True := by
  have htotal : m.units.scalarBytes.toNat ≤ (m.bytesOf length).toNat := by
    rw [toNat_bytesOf]
    exact Nat.le_min.mpr ⟨Nat.le_mul_of_pos_left _ hl,
      Nat.le_of_lt_succ m.units.scalarBytes.toNat_lt⟩
  refine Triple.top.bind fun offset => Triple.top.bind fun _ => Triple.top.bind fun _ =>
    Triple.top.bind fun _ => ?_
  refine Triple.bind (Q := fun size _ => m.units.scalarBytes.toNat ≤ size ∧ True)
    (Triple.view fun w _ => ⟨le_readSize _, trivial⟩) fun size => Triple.assume fun hsize => ?_
  have hmin := Nat.le_min.mpr ⟨hsize, htotal⟩
  refine (triple_answers_windows (m.bytesOf length).toNat_lt
    (Nat.lt_of_lt_of_le hs hmin)).bind fun _ => Triple.pure fun _ h => h.mono hmin

end Mem

namespace Probing

variable {d : Driver} {m : Mem} (hs : 0 < m.units.scalarBytes.toNat)
  (ha : 0 < d.probe.arraySize.toNat)
include hs ha

theorem triple_answers_observed :
    Triple (Over d fun _ => True) (isObserved m)
      (fun _ => Over d (Answers m.units.scalarBytes.toNat)) (Over d fun _ => True) := by
  refine Triple.bind (Q := fun p s => p.arraySize = d.probe.arraySize ∧ Over d (fun _ => True) s)
    (Triple.view fun s h => ⟨?_, h⟩) fun p => Triple.assume fun hp => ?_
  · obtain ⟨⟨_, _, he⟩, _⟩ := h
    rw [he]
    rfl
  refine Triple.bind (Q := fun pattern s => pattern.length = d.probe.arraySize.toNat ∧
    Over d (fun _ => True) s) (triple_ofSpec (fun pattern s hpat h => ⟨?_, h⟩) fun _ h => h)
      fun pattern => Triple.assume fun hpat => ?_
  · rw [← hp]
    unfold Probe.pattern Probe.row at hpat
    split at hpat
    · cases hpat
      exact List.length_replicate
    · cases hpat
  refine Triple.bind (Q := fun _ => Over d fun _ => True)
    (triple_ofSpec (fun _ _ _ h => h) fun _ h => h) fun address => triple_over ?_
  have hl : 0 < (UInt64.ofNat pattern.length).toNat := by
    rwa [hpat, UInt64.ofNat_toNat]
  exact (Mem.triple_answers_read hs hl).bind fun _ => Triple.pure fun _ h => h

theorem triple_answers_wait {policy : FlushPolicy} :
    Triple (Over d fun _ => True) (wait m policy)
      (fun _ => Over d (Answers m.units.scalarBytes.toNat)) (Over d fun _ => True) := by
  refine triple_setOutstanding.bind fun _ => Triple.viewed fun more => ?_
  generalize 0 = polls, more + 1 = more
  induction more generalizing polls with
  | zero => exact Triple.fail fun _ h => h
  | succ more ih =>
    refine (triple_answers_observed hs ha).bind fun seen => ?_
    cases seen with
    | false => exact (ih _).strengthen fun _ h => ⟨h.1, trivial⟩
    | true => exact triple_setOutstanding.bind fun _ => Triple.pure fun _ h => h

end Probing

theorem triple_answers_configureNew {d : Driver} (hs : 0 < d.dram0.units.scalarBytes.toNat)
    (ha : 0 < d.probe.arraySize.toNat) :
    Triple (fun _ => True) d.configureNew
      (fun _ => Answers d.dram0.units.scalarBytes.toNat) fun _ => True := by
  have hstream : ∀ stream, Triple (Driving.Over d fun _ => True) (Driving.executeStream stream)
      (fun _ => Driving.Over d (Answers d.dram0.units.scalarBytes.toNat))
      (Driving.Over d fun _ => True) := by
    have hid : ∀ w : Switch Simulator, True → True := fun _ h => h
    refine fun stream => Driving.triple_executeStream (R := Driving.Over d fun _ => True)
      (S := Driving.Over d fun _ => True) (T := Driving.Over d fun _ => True)
      (fun _ h => h.elim And.left And.left) (fun _ h => h.elim id id) ?_ ?_ (fun probe _ _ => ?_) ?_
    · exact Driving.triple_probeOver (Probing.triple_settleOver hid fun _ _ => Triple.top)
    · exact Driving.triple_probeOver (Probing.triple_armOver hid fun _ _ _ => Triple.top)
    · exact Driving.keeps_dmaWrite (fun _ => Triple.top) (fun _ _ _ => Triple.top) Triple.top
        Triple.top
    · exact Driving.triple_probeOver (Probing.triple_answers_wait hs ha)
  have hconfigure : Triple (Driving.Over d fun _ => True) (Driving.configure d.registers)
      (fun _ => Driving.Over d (Answers d.dram0.units.scalarBytes.toNat))
      (Driving.Over d fun _ => True) := by
    refine Triple.bind (Q := fun _ => Driving.Over d fun _ => True) ?_ hstream
    exact Triple.bind (Q := fun _ => Driving.Over d fun _ => True) (Triple.view fun _ h => h)
      fun _ => triple_ofEncode (fun _ _ _ h => h) fun _ h => h
  intro w _
  have hrun := hconfigure ⟨d, w⟩ ⟨⟨d.probe.generation, d.probe.outstanding, rfl⟩, trivial⟩
  rw [configureNew_run]
  cases hr : (Driving.configure d.registers).run ⟨d, w⟩ with
  | mk r t =>
    rw [hr] at hrun
    cases r with
    | ok polls => exact hrun.2
    | error e => trivial

theorem triple_answers_new {arch : Architecture} {config : Config} :
    Triple (fun _ => True) (Driver.new arch config)
      (fun _ => Answers arch.dataType.scalarBytes) fun _ => True := by
  have htrue : ∀ (w : Switch Simulator), True → True := fun _ h => h
  refine Triple.bind (Q := fun _ _ => arch.validate = .ok () ∧ True)
    (triple_ofSpec (fun _ _ hr h => ⟨hr, h⟩) htrue) fun _ => Triple.assume fun hv => ?_
  refine Triple.top.bind fun layout => ?_
  refine Triple.bind (Q := fun probe _ => Probe.ofArchitecture arch = .ok probe ∧ True)
    (triple_ofSpec (fun _ _ hr h => ⟨hr, h⟩) htrue) fun probe => Triple.assume fun hp => ?_
  refine Triple.top.bind fun limit => Triple.top.bind fun _ => Triple.top.bind fun _ =>
    Triple.top.bind fun size => Triple.top.bind fun ⟨first, second⟩ => ?_
  rw [← toNat_scalarBytes]
  refine triple_answers_configureNew ?_ ?_
  · change 0 < arch.units.scalarBytes.toNat
    rw [toNat_scalarBytes]
    exact scalarBytes_pos _
  · change 0 < probe.arraySize.toNat
    rw [(Probe.ofArchitecture_eq_ok hp).2.2.2.2.1]
    exact Architecture.arraySize_pos hv

/-- No operation but the last one changes what the instance gives in a call. -/
theorem Driving.answers_after {h : Driving (Switch Simulator)}
    (ha : Answers h.driver.arch.dataType.scalarBytes h.remote) {op : Operation}
    (hop : op ≠ .close) :
    Answers (h.after op).driver.arch.dataType.scalarBytes (h.after op).remote := by
  obtain ⟨⟨_, _, _, hd⟩, hk⟩ := after_of_keeps (A := fun _ => True) (fun _ _ _ _ => trivial)
    (fun _ hs _ => keepsOr_of_calls keeps_answers hs) trivial hop ha
  rw [hd]
  exact hk

theorem Reached.answers {A : Driver → Operation → Prop} {h : Driving (Switch Simulator)}
    (hr : Reached A h) : h.Closed ∨ Answers h.driver.arch.dataType.scalarBytes h.remote := by
  refine hr.closed_or (K := fun h => Answers h.driver.arch.dataType.scalarBytes h.remote)
    (fun hblank new_ok => ?_) (fun _ _ ha _ hop => Driving.answers_after ha hop)
    (fun _ _ _ _ ha => ha) fun _ _ _ _ ha => ha
  obtain ⟨_, rfl, _⟩ := triple_new.ok hblank new_ok
  exact triple_answers_new.ok trivial new_ok

end Answers

section Rest

variable {limit : Nat} {mach : Machine}

/-- An instance whose unit stands still, behind a switch that lets every call pass. -/
def Rest (limit : Nat) (mach : Machine) (w : Switch Simulator) : Prop :=
  w.remote.Resting limit mach ∧ w.plan.calls = []

namespace Mem

variable {m : Mem} {offset : UInt64}

theorem triple_readWindow_rest {start length : Nat} (hl : length ≤ limit)
    (hsome : (mach.memory.region? m.name).isSome)
    (hfit : offset.toNat + (start + length) ≤ (mach.memory.bytes m.name).length)
    (hsmall : (mach.memory.bytes m.name).length < 2 ^ 64) :
    Triple (Rest limit mach) (m.readWindow offset (start, length))
      (fun piece w => piece = ((mach.memory.bytes m.name).drop (offset.toNat + start)).take length ∧
        Rest limit mach w) fun _ => False := by
  have hlen : (UInt64.ofNat length).toNat = length :=
    UInt64.toNat_ofNat_of_lt' (by change _ < 2 ^ 64; omega)
  have hp : (offset + .ofNat start).toNat = offset.toNat + start := toNat_position (by omega)
  have hwindow : mach.memory.checkWindow m.name (offset + .ofNat start) (.ofNat length) = .ok () :=
    Memory.checkWindow_eq_ok_iff.mpr ⟨hsome, by rw [hp, hlen]; omega⟩
  have hread := triple_direct (Simulator.triple_read_resting (hlen.symm ▸ hl) hwindow)
  rw [Memory.read_eq, hp, hlen] at hread
  have hcall : Triple (Rest limit mach)
      ((execute [.bufferRead m.name (offset + .ofNat start) (.ofNat length)]).mapError
        DriverError.remote)
      (fun rs w => rs = [.data (((mach.memory.bytes m.name).drop
        (offset.toNat + start)).take length)] ∧ Rest limit mach w) fun _ => False :=
    (Triple.mapError hread).weaken (fun _ h => h) (fun _ _ h => ⟨h.1.1, h.1.2, h.2⟩) fun _ h => h.1
  refine hcall.bind fun responses => Triple.assume fun hr => ?_
  rw [hr]
  exact Triple.pure fun _ h => ⟨rfl, h⟩

/-- The memory lies in a buffer of the instance, which is at least as large. -/
structure Backed (m : Mem) (mach : Machine) : Prop where
  typed : m.Typed
  allocated : (mach.memory.region? m.name).isSome
  size : m.sizeBytes.toNat ≤ (mach.memory.bytes m.name).length
  small : (mach.memory.bytes m.name).length < byteLimit

theorem Backed.triple_read_rest {address : ScalarAddress} {length : UInt64} (hb : m.Backed mach)
    (hl : m.dataType.scalarBytes ≤ limit) (hfit : m.Within address.val.toNat length.toNat) :
    Triple (Rest limit mach) (m.read address length)
      (fun values w => values = m.dataType.ofBytes (((mach.memory.bytes m.name).drop
        (address.val.toNat * m.dataType.scalarBytes)).take
          (length.toNat * m.dataType.scalarBytes)) ∧ Rest limit mach w) fun _ => False := by
  have hsize := hb.size
  have hsmall := hb.small
  obtain ⟨offset, ho, hread⟩ := hfit.read_eq (σ := Switch Simulator) hb.typed
  rw [Within, Nat.add_mul, ← ho] at hfit
  rw [hread, ← ho]
  refine Triple.bind (Q := fun _ => Rest limit mach) ?_ fun _ => ?_
  · refine Triple.bind (Q := fun up w => up = true ∧ Rest limit mach w)
      (Triple.view fun _ h => ⟨h.1.up, h⟩) fun up => Triple.assume fun hup => ?_
    exact Triple.require (fun _ _ h => h) fun _ hn _ => hn hup
  refine Triple.bind (Q := fun _ => Rest limit mach) (Triple.require (fun _ _ h => h)
    fun _ hn _ => hn (by omega)) fun _ => ?_
  refine Triple.bind (Q := fun size w => size = m.readSize limit ∧ Rest limit mach w)
    (Triple.view fun w h => ⟨?_, h⟩) fun size => Triple.assume fun hsz => ?_
  · exact congrArg m.readSize h.1.payload
  subst hsz
  have hpos := m.readSize_pos (hb.typed ▸ scalarBytes_pos m.dataType) limit
  have hpay := readSize_le (hb.typed ▸ hl)
  simp only [byteLimit] at hsmall
  refine (triple_pieces hpos fun start len hlen hw => triple_readWindow_rest (by omega)
    hb.allocated (by omega) (by omega)).bind fun pieces => Triple.assume fun hp =>
      Triple.pure fun _ h => ⟨by rw [hp], h⟩

end Mem

namespace Driving

theorem triple_read_row {d : Driver} (hd : d.Sound) (hm : d.banks.Hold mach)
    (hopen : d.closed = false) (hl : d.arch.dataType.scalarBytes ≤ limit) {k : Bank} {row : UInt64}
    (hr : row < d.arch.depth k.space) :
    Triple (With d (Rest limit mach)) (read k ⟨row * d.arch.arraySize⟩ d.arch.arraySize)
      (fun values h => values = d.arch.dataType.ofBytes (d.banks.row mach k row) ∧
        With d (Rest limit mach) h) fun _ => False := by
  have hrow : row.toNat * d.arch.rowBytes + d.arch.rowBytes ≤ d.banks.size := hd.fit.row_le hr
  have hlt := hm.size_lt
  have hpos := scalarBytes_pos d.arch.dataType
  have hscalars : row.toNat * d.arch.arraySize.toNat ≤ row.toNat * d.arch.rowBytes :=
    Nat.mul_le_mul_left _ (Nat.le_mul_of_pos_right _ hpos)
  have haddress : (row * d.arch.arraySize).toNat = row.toNat * d.arch.arraySize.toNat := by
    rw [UInt64.toNat_mul]
    exact Nat.mod_eq_of_lt (by omega)
  have hstart : (row * d.arch.arraySize).toNat * d.arch.dataType.scalarBytes =
      row.toNat * d.arch.rowBytes := by
    rw [haddress, Nat.mul_assoc, Architecture.rowBytes]
  have hname : (d.mem k).name = d.banks.name k := by rw [hd.mem k]
  have hdata : (d.mem k).dataType = d.arch.dataType := by rw [hd.mem k]
  have hsize : (d.mem k).sizeBytes.toNat = d.banks.size := by
    rw [hd.mem k]
    rfl
  have hbacked : (d.mem k).Backed mach := by
    obtain ⟨_, hregion, _⟩ := hm.apart.region?_of_mem (hm.extents k)
    have hcontents : (mach.memory.bytes (d.mem k).name).length = d.banks.size := by
      rw [hname]
      exact hm.length_contents k
    refine ⟨?_, hname ▸ Option.isSome_of_eq_some hregion, ?_, ?_⟩
    · rw [Mem.Typed, hd.mem k]
      exact toNat_scalarBytes d.arch
    · exact Nat.le_of_eq (hsize.trans hcontents.symm)
    · rw [hcontents]
      exact hm.size_lt_byteLimit hd.fit
  have hread : Triple (Rest limit mach) ((d.mem k).read ⟨row * d.arch.arraySize⟩ d.arch.arraySize)
      (fun values w => values = d.arch.dataType.ofBytes (d.banks.row mach k row) ∧
        Rest limit mach w) fun _ => False := by
    refine (hbacked.triple_read_rest (hdata ▸ hl) ?_).relax fun values w h => ⟨?_, h.2⟩
    · rw [Mem.Within, Nat.add_mul, hdata, hsize, hstart]
      exact hrow
    · rw [h.1, hname, hdata, hstart]
      rfl
  refine Triple.bind (Q := fun _ => With d (Rest limit mach)) ?_ fun _ => ?_
  · refine Triple.bind (Q := fun e h => e = d ∧ With d (Rest limit mach) h)
      (Triple.view fun _ h => ⟨h.1, h⟩) fun e => Triple.assume fun he => ?_
    refine Triple.require (fun _ _ h => h) fun _ hn _ => hn ?_
    rw [he, hopen]
    exact Bool.false_ne_true
  refine Triple.bind (Q := fun e h => e = d ∧ With d (Rest limit mach) h)
    (Triple.view fun _ h => ⟨h.1, h⟩) fun e => Triple.assume fun he => ?_
  subst he
  exact (triple_with hread).weaken (fun _ h => h) (fun _ _ h => ⟨h.2.1, h.1, h.2.2⟩) fun _ h => h.2

theorem read_row {h : Driving (Switch Simulator)} (hd : h.driver.Sound)
    (hm : h.driver.banks.Hold h.machine) (hopen : h.driver.closed = false)
    (ha : Answers h.driver.arch.dataType.scalarBytes h.remote) (hplan : h.remote.plan.calls = [])
    (hstill : h.remote.remote.config.stall = true ∨ h.device.queue = []) {k : Bank} {row : UInt64}
    (hr : row < h.driver.arch.depth k.space) :
    ((read k ⟨row * h.driver.arch.arraySize⟩ h.driver.arch.arraySize).run h).1 =
      .ok (h.driver.arch.dataType.ofBytes (h.driver.banks.row h.machine k row)) := by
  obtain ⟨values, _, hrun, he, _⟩ := (triple_read_row hd hm hopen ha.2 hr).succeeds
    (s := h) ⟨rfl, ⟨ha.1, rfl, rfl, hstill⟩, hplan⟩
  rw [hrun, he]

end Driving

end Rest

end TensorUnit.Host
