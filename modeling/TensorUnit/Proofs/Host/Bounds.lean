import TensorUnit.Proofs.Host.Confinement
import TensorUnit.Proofs.Tcu.Fitting

namespace TensorUnit.Host

open TensorUnit.Action (Triple Keeps)
open Remote Sim

section Trace

/-- The instance has been called with primitives of some kind only since an earlier state, and takes
payloads of some size. -/
def Traced (w₀ : Switch Simulator) (A : Primitive → Prop) (limit : Nat) (w : Switch Simulator) :
    Prop :=
  (∃ batches : List Batch, w.log = batches ++ w₀.log ∧ ∀ batch ∈ batches, ∀ p ∈ batch, A p) ∧
    limit ≤ maxPayload w

variable {w₀ w : Switch Simulator} {A : Primitive → Prop} {limit : Nat}

theorem traced_refl (h : limit ≤ maxPayload w) : Traced w A limit w :=
  ⟨⟨[], rfl, fun _ hb => nomatch hb⟩, h⟩

theorem Traced.callsSince (h : Traced w₀ A limit w) :
    ∀ batch ∈ callsSince w₀ w, ∀ p ∈ batch, A p := by
  obtain ⟨⟨batches, hlog, hA⟩, _⟩ := h
  intro batch hb
  rw [Sim.callsSince, hlog, List.length_append, Nat.add_sub_cancel, List.take_left,
    List.mem_reverse] at hb
  exact hA batch hb

theorem Traced.send (h : Traced w₀ A limit w) {batch : Batch} (hb : ∀ p ∈ batch, A p) :
    Traced w₀ A limit ((Switch.send batch).run w).2 := by
  obtain ⟨⟨batches, hlog, hA⟩, hpay⟩ := h
  rw [send_run]
  refine ⟨⟨batch :: batches, congrArg (batch :: ·) hlog, ?_⟩, ?_⟩
  · intro b hm
    rcases List.mem_cons.mp hm with rfl | hm
    · exact hb
    · exact hA b hm
  · refine (?_ : limit ≤ Sim.Config.maxPayload (Simulator.config _))
    dsimp only
    split
    · exact hpay
    · exact (Simulator.keeps_settings_execute (P := fun c _ => limit ≤ c.maxPayload) batch).state
        hpay

theorem keeps_traced {batch : Batch} (hb : ∀ p ∈ batch, A p) :
    Keeps (Traced w₀ A limit)
      (execute batch : Action (Switch Simulator) RemoteError (List Response)) := by
  have hsend : ∀ {w t r}, Traced w₀ A limit w → (Switch.send batch).run w = (r, t) →
      Traced w₀ A limit t := by
    intro w t r hw hr
    have ht := hw.send hb
    rwa [hr] at ht
  exact .of_run (fun _ _ _ => hsend) fun _ _ _ => hsend

end Trace

section New

theorem Probe.exists_assemble {arch : Architecture} {layout : Tcu.Layout} {p : Probe}
    (hl : Tcu.Layout.ofArchitecture arch = .ok layout) (hp : ofArchitecture arch = .ok p) :
    ∃ stream, Tcu.assemble layout p.instructions = .ok stream := by
  obtain rfl := (Tcu.Layout.ofArchitecture_eq_ok hl).2
  unfold ofArchitecture at hp
  split at hp
  · cases hp
  rename_i hrows
  cases hp
  rw [not_or, UInt64.not_lt] at hrows
  obtain ⟨hdepth, hlocal⟩ := hrows
  have hlast : (arch.localDepth - 1).toNat < arch.localDepth.toNat :=
    UInt64.sub_lt (by decide) (UInt64.pos_iff_ne_zero.mpr hlocal)
  have hmove : ∀ (flag : Tcu.MoveFlag) (row : UInt64), row < arch.dram0Depth →
      ∃ word, (Tcu.Instruction.move flag (arch.localDepth - 1) row 0).encode
        (Tcu.Layout.ofDepths arch) = .ok word := fun flag row hrow =>
    Tcu.Instruction.exists_encode_dataMove hl (Tcu.Layout.lt_op0Address hlast) (Nat.two_pow_pos _)
      (Tcu.Layout.lt_op1Address .dram0 hrow) (Nat.two_pow_pos _) (Nat.two_pow_pos _)
  apply Tcu.assemble_eq_ok_iff.mpr
  simp only [instructions, List.forall_mem_cons]
  refine ⟨hmove _ _ ?_, hmove _ _ ?_, List.forall_mem_nil _⟩
  · exact UInt64.sub_lt (by decide) (UInt64.le_trans (by decide) hdepth)
  · exact UInt64.sub_lt (by decide) hdepth

theorem Memory.size_lt_of_alloc {m m' : Memory} {name : String} {size address : UInt64}
    (h : m.alloc name size = .ok (address, m')) : size.toNat < byteLimit := by
  unfold Memory.alloc at h
  split at h
  · cases h
  · split at h
    · cases h
    · split at h
      · cases h
      · exact Nat.not_le.mp ‹_›

theorem Simulator.triple_alloc_small {name : String} {size : UInt64} {rest : Batch} :
    Triple (fun _ => True) (Simulator.execute (.bufferAlloc name size :: rest))
      (fun _ _ => size.toNat < byteLimit) fun _ => True := by
  have hkeep : ∀ {β : Type} {a : Simulator.Act β},
      Triple (fun _ => size.toNat < byteLimit) a (fun _ _ => size.toNat < byteLimit)
        fun _ => True :=
    fun {_ _} => .of_run (fun _ _ _ h _ => h) fun _ _ _ _ _ => trivial
  refine Triple.top.bind fun _ => Triple.top.bind fun _ => Triple.top.bind fun _ => ?_
  refine Triple.bind (Q := fun _ _ => size.toNat < byteLimit) ?_ fun _ => hkeep
  refine Triple.bind (Q := fun _ _ => size.toNat < byteLimit) ?_ fun _ => hkeep
  refine Triple.bind (Q := fun r _ => ∃ m : Memory, r = m.alloc name size)
    (Triple.view fun s _ => ⟨s.memory, rfl⟩) fun r => ?_
  refine Triple.bind (Q := fun _ _ => size.toNat < byteLimit) ?_ fun _ => hkeep
  refine Triple.ofExcept (fun p _ hp hm => ?_) fun _ _ => trivial
  obtain ⟨m, rfl⟩ := hm
  exact Memory.size_lt_of_alloc (hp : m.alloc name size = .ok (p.1, p.2))

theorem Switch.through_run {σ ε α : Type} (a : Action σ ε α) (w : Switch σ) :
    (Switch.through a).run w = ((a.run w.remote).1, { w with remote := (a.run w.remote).2 }) := by
  cases w
  rfl

/-- What a call that succeeds says of all states holds behind a switch, which makes the call before
it gives an answer. -/
theorem Switch.triple_const {batch : Batch} {φ : Prop}
    (h : Triple (fun _ => True) (Simulator.execute batch) (fun _ _ => φ) fun _ => True) :
    Triple (fun _ => True) (execute batch : Action (Switch Simulator) RemoteError (List Response))
      (fun _ _ => φ) fun _ => True := by
  have hthrough : Triple (fun _ => True)
      (Switch.through (execute batch) : Action (Switch Simulator) RemoteError (List Response))
      (fun _ _ => φ) fun _ => True := by
    refine .of_run (fun w rs t _ hr => ?_) fun _ _ _ _ _ => trivial
    refine h.ok (s := w.remote) (x := rs) (t := t.remote) trivial ?_
    rw [Switch.through_run] at hr
    obtain ⟨he, rfl⟩ := Prod.mk.inj hr
    exact Prod.ext he rfl
  change Triple _ (Switch.send batch) _ _
  refine Triple.top.bind fun interference => ?_
  split
  · exact Triple.fail fun _ _ => trivial
  · exact hthrough.bind fun _ => Triple.pure fun _ h => h
  · exact hthrough

variable {arch : Architecture} {config : Config} {limit : Nat}

theorem triple_allocate_small {size : UInt64} :
    Triple (fun _ => True)
      (Driver.allocate config size : Action (Switch Simulator) DriverError (UInt64 × UInt64))
      (fun _ _ => size.toNat < byteLimit) fun _ => True := by
  refine Triple.bind (Triple.attempt (F := fun _ => True)
    (Switch.triple_const Simulator.triple_alloc_small)) fun outcome => ?_
  cases outcome with
  | error e => exact Triple.bind Triple.top fun _ => Triple.fail fun _ _ => trivial
  | ok rs =>
    refine .of_run (fun _ _ _ hw _ => hw.1 rs rfl) fun _ _ _ _ _ => trivial

theorem Config.chunkSize_of_validate {c : Config} {limit : Nat} (h : c.validate limit = .ok ()) :
    0 < c.chunkSize.toNat ∧ c.chunkSize.toNat ≤ limit := by
  unfold Config.validate at h
  split at h
  · cases h
  · rename_i hf
    unfold Config.fault? at hf
    split at hf
    · cases hf
    · split at hf
      · cases hf
      · split at hf
        · assumption
        · cases hf

section Configure

variable {σ : Type} [Service σ] {d : Driver}

theorem triple_configureNew_any :
    Triple (fun _ => True) (d.configureNew : Action σ DriverError Driver)
      (fun d' _ => ∃ generation outstanding, d' = d.probing generation outstanding)
      fun _ => True := by
  have hconfigure : Keeps (Driving.Over d fun _ => True)
      (Driving.configure d.registers : Driving.Act σ Nat) := by
    apply Action.KeepsOr.keeps
    rw [← Action.KeepsOr.discard_iff]
    change Action.KeepsOr _ _ (Driving.perform (.configure d.registers))
    exact Driving.keepsOr_perform (A := fun _ => True) (fun _ ho => ho.1) (fun _ _ _ _ => trivial)
      (fun _ hs _ => Driving.keepsOr_of_calls (fun _ => Triple.top) hs) trivial nofun nofun
  refine .of_run (fun remote d' _ _ hr => ?_) fun _ _ _ _ _ => trivial
  rw [configureNew_run] at hr
  have hstart : Driving.Over d (fun _ => True) ⟨d, remote⟩ :=
    ⟨⟨d.probe.generation, d.probe.outstanding, rfl⟩, trivial⟩
  cases hc : (Driving.configure d.registers).run ⟨d, remote⟩ with
  | mk r h =>
    rw [hc] at hr
    cases r with
    | error e => cases hr
    | ok polls =>
      cases hr
      exact (hconfigure.ok hstart hc).1

end Configure

theorem Driver.WellMade.probing {d : Driver} (hd : d.WellMade limit) (generation : Nat)
    (outstanding : Bool) : (d.probing generation outstanding).WellMade limit :=
  ⟨hd.sound.probing .., hd.small, hd.chunk, hd.payload, hd.probe, fun loaded hl =>
    ⟨(hd.takes loaded hl).placed, (hd.takes loaded hl).whole⟩⟩

theorem Driver.WellMade.load {d : Driver} (hd : d.WellMade limit) {loaded : LoadedModel}
    (h : d.Takes loaded) : ({ d with loaded := some loaded } : Driver).WellMade limit := by
  refine ⟨hd.sound.load _, hd.small, hd.chunk, hd.payload, hd.probe, ?_⟩
  intro _ hl
  cases hl
  exact ⟨h.placed, h.whole⟩

/-- A driver that is made on an instance, whatever that is, is well made. -/
theorem triple_new_wellMade :
    Triple (fun w : Switch Simulator => maxPayload w = limit) (Driver.new arch config)
      (fun d _ => d.WellMade limit) fun _ => True := by
  have htrue : ∀ {P : Switch Simulator → Prop} w, P w → True := fun _ _ => trivial
  refine Triple.bind (Q := fun _ w => arch.validate = .ok () ∧ maxPayload w = limit)
    (triple_ofSpec (fun _ _ hr h => ⟨hr, h⟩) htrue) fun _ => Triple.assume fun hv => ?_
  refine Triple.bind (Q := fun layout w => Tcu.Layout.ofArchitecture arch = .ok layout ∧
    maxPayload w = limit) (triple_ofSpec (fun _ _ hr h => ⟨hr, h⟩) htrue)
    fun layout => Triple.assume fun hlayout => ?_
  obtain rfl := (Tcu.Layout.ofArchitecture_eq_ok hlayout).2
  refine Triple.bind (Q := fun probe w => Probe.ofArchitecture arch = .ok probe ∧
    maxPayload w = limit) (triple_ofSpec (fun _ _ hr h => ⟨hr, h⟩) htrue)
    fun probe => Triple.assume fun hp => ?_
  refine Triple.bind (Q := fun (l : Nat) w => l = limit ∧ maxPayload w = limit)
    (Triple.view fun _ h => ⟨h, h⟩) fun l => Triple.assume fun hl => ?_
  subst hl
  refine Triple.bind (Q := fun _ _ => config.validate l = .ok () ∧ True)
    (Triple.ofExcept (fun _ _ hr _ => ⟨hr, trivial⟩) htrue) fun _ => Triple.assume fun hc => ?_
  refine Triple.top.bind fun _ => ?_
  refine Triple.bind (Q := fun size _ => Driver.bufferSize arch = .ok size ∧ True)
    (Triple.ofExcept (fun _ _ hr _ => ⟨hr, trivial⟩) htrue) fun size => Triple.assume fun hs => ?_
  refine Triple.bind (Q := fun _ _ => size.toNat < byteLimit ∧ True)
    (triple_allocate_small.relax fun _ _ h => ⟨h, trivial⟩) fun ⟨first, second⟩ =>
    Triple.assume fun hsmall => ?_
  obtain ⟨hpos, hle⟩ := Config.chunkSize_of_validate hc
  have hd := Driver.sound_unconfigured first second hv hp hc hs
  refine triple_configureNew_any.relax ?_
  rintro _ _ ⟨g, o, rfl⟩
  have hmade : (Driver.unconfigured arch config probe size first second).WellMade l :=
    ⟨hd, hsmall, hpos, hle, Probe.exists_assemble hlayout hp, fun _ hl => nomatch hl⟩
  exact hmade.probing g o

end New

/-- The states of a driver that was made on some instance, whatever its unit and its state, when
that took payloads of a certain size. Between two operations the instance may become any other. -/
inductive Served (limit : Nat) : Driving (Switch Simulator) → Prop where
  | new {arch : Architecture} {config : Config} {w₀ w : Switch Simulator} {d : Driver}
      (payload : maxPayload w₀ = limit)
      (new_ok : (Driver.new arch config).run w₀ = (.ok d, w)) : Served limit ⟨d, w⟩
  | perform {h : Driving (Switch Simulator)} (op : Operation) (served : Served limit h) :
      Served limit (h.after op)
  | exchange {h : Driving (Switch Simulator)} (remote : Switch Simulator)
      (served : Served limit h) : Served limit { h with remote }

variable {limit : Nat} {h : Driving (Switch Simulator)}

theorem Driver.WellMade.after (hd : h.driver.WellMade limit) {op : Operation} (hop : op ≠ .close) :
    (h.after op).driver.WellMade limit := by
  have hover : Driving.Over h.driver (fun _ => True) h :=
    ⟨⟨h.driver.probe.generation, h.driver.probe.outstanding, rfl⟩, trivial⟩
  rcases Driving.after_of_simple (A := fun _ => True) (fun _ ho => ho.1) (fun _ _ _ _ => trivial)
    (fun _ hs _ => Driving.keepsOr_of_calls (fun _ => Triple.top) hs) trivial hop hover with
    (⟨⟨g, o, hk⟩, _⟩ | ⟨t, loaded, ⟨⟨g, o, ht⟩, _⟩, he, htakes⟩) | ⟨_, _, hf⟩
  · rw [hk]
    exact hd.probing g o
  · have hload := (hd.probing g o).load ⟨htakes.placed, htakes.whole⟩
    rw [he, Driving.load, ht]
    exact hload
  · exact hf.elim

theorem Served.closed_or (hs : Served limit h) : h.Closed ∨ h.driver.WellMade limit := by
  induction hs with
  | new payload new_ok => exact .inr (triple_new_wellMade.ok payload new_ok)
  | @perform h op _ ih =>
    rcases ih with hc | hd
    · exact .inl ((Driving.after_closed hc op).symm ▸ hc)
    · by_cases hop : op = .close
      · exact .inl (hop ▸ h.closed_close)
      · exact .inr (hd.after hop)
  | exchange remote _ ih => exact ih

/-- A model that has been loaded runs on whatever instance takes the payloads that it took when the
driver was made. The run fails only with an input, a call or a timeout, writes only within its
inputs, the rows of the probe and the staging buffer, and leaves the model loaded. -/
theorem run_confined {loaded : LoadedModel} (hs : Served limit h) (hopen : h.driver.closed = false)
    (hl : h.driver.loaded = some loaded) (hpay : limit ≤ maxPayload h.remote)
    (inputs : Driving.Tensors) :
    (∀ e, ((Driving.run inputs).run h).1 = .error e → e.OfRun) ∧
      (∀ batch ∈ h.batches (.run inputs), ∀ p ∈ batch, h.driver.Covers loaded p) ∧
      (h.after (.run inputs)).driver.loaded = some loaded ∧
      (h.after (.run inputs)).driver.closed = false := by
  have hd : h.driver.WellMade limit := hs.closed_or.resolve_left (by simp [Driving.Closed, hopen])
  have hrun := Driving.confined_run (K := Traced h.remote (h.driver.Covers loaded) limit) hd hopen
    (allows_run fun _ hw => hw.2) (fun _ => keeps_traced) hl inputs
  have hstart : Driving.Beside h.driver h.driver.Probes
      (Traced h.remote (h.driver.Covers loaded) limit) h :=
    ⟨⟨h.driver.probe, ⟨_, _, rfl⟩, rfl⟩, traced_refl hpay⟩
  obtain ⟨herr, hend⟩ := Action.confined_iff.mp hrun h hstart
  have hafter : h.after (.run inputs) = ((Driving.run inputs).run h).2 := Action.bind_pure_run _ _
  rw [← hafter] at hend
  obtain ⟨⟨p, _, hdriver⟩, htraced⟩ := hend
  refine ⟨herr, htraced.callsSince, ?_, ?_⟩
  · rw [hdriver]
    exact hl
  · rw [hdriver]
    exact hopen

section Small

theorem served_smallStart {h : Driving (Switch Simulator)} (hs : smallStart = some h) :
    Served defaultMaxPayload h := by
  obtain ⟨sim, hsim, hnew⟩ := exists_of_startWith hs
  refine .new ?_ hnew
  obtain ⟨layout, _, hsim⟩ := exists_of_bind_ok hsim
  obtain ⟨memory, _, hsim⟩ := exists_of_bind_ok hsim
  obtain ⟨device, _, hsim⟩ := exists_of_bind_ok hsim
  cases hsim
  rfl

def oddInputs : Driving.Tensors :=
  [("x", [⟨0x7ff8000000000000⟩]), ("z", [])]

theorem run_confined_echoing :
    ∃ h : Driving (Switch Simulator), ∃ loaded, Served defaultMaxPayload h ∧
      h.driver.closed = false ∧ h.driver.loaded = some loaded ∧
      defaultMaxPayload ≤ maxPayload h.remote ∧
      (∀ e, ((Driving.run oddInputs).run h).1 = .error e → e.OfRun) ∧
      (∀ batch ∈ h.batches (.run oddInputs), ∀ p ∈ batch, h.driver.Covers loaded p) ∧
      (h.after (.run oddInputs)).driver.loaded = some loaded ∧
      (h.after (.run oddInputs)).driver.closed = false := by
  obtain ⟨start, hs⟩ := exists_smallStart
  have hfacts : ∀ h ∈ smallStart, h.driver.closed = false ∧ h.driver.arch = smallArch ∧
      defaultMaxPayload ≤ maxPayload h.remote := by decide +kernel
  obtain ⟨hopen, harch, hpay⟩ := hfacts start hs
  have hserved := served_smallStart hs
  have hd := (hserved.closed_or.resolve_left (by simp [Driving.Closed, hopen])).sound
  have hechoing : Served defaultMaxPayload (echoing start) :=
    after_loadModel_echo hd hopen harch ▸ hserved.perform _
  exact ⟨_, _, hechoing, hopen, rfl, hpay, run_confined hechoing hopen rfl hpay oddInputs⟩

end Small

end TensorUnit.Host
