import TensorUnit.Proofs.Host.Upkeep
import TensorUnit.Proofs.Remote.Ledger

namespace TensorUnit

open TensorUnit.Action (Triple Keeps KeepsOr Raises Confined)

namespace Remote

/-- Carries no more bytes than a write may, and asks for no more than a read may. -/
def Primitive.Within (writes reads : Nat) : Primitive → Prop
  | .bufferWrite _ _ data => data.length ≤ writes
  | .bufferRead _ _ length => length.toNat ≤ reads
  | _ => True

/-- An instance whose limit stays what it is. -/
structure Steady (σ : Type) [Service σ] : Prop where
  keeps_up : ∀ n, Keeps (fun s : σ => Service.maxPayload s = n)
    (Service.up : Action σ RemoteError Unit)
  keeps_down : ∀ n, Keeps (fun s : σ => Service.maxPayload s = n)
    (Service.down : Action σ RemoteError Unit)
  keeps_execute : ∀ n batch, Keeps (fun s : σ => Service.maxPayload s = n)
    (Service.execute batch : Action σ RemoteError (List Response))

end Remote

namespace Host

open Remote Sim

variable {σ : Type} [Service σ] {P : σ → Prop} {n r : Nat}

/-- An instance that takes `n` bytes in all states of a set, which is kept by the calls that write
no more than these and read no more than `r`. -/
structure Paced (n r : Nat) (P : σ → Prop) : Prop where
  limit : ∀ s, P s → maxPayload s = n
  le : n ≤ r
  keeps_up : Keeps P (up : Action σ RemoteError Unit)
  keeps_down : Keeps P (down : Action σ RemoteError Unit)
  keeps_execute : ∀ batch : Batch, (∀ p ∈ batch, p.Within n r) →
    Keeps P (execute batch : Action σ RemoteError (List Response))

def Driver.Reads (d : Driver) (r : Nat) : Prop :=
  ∀ bank, (d.mem bank).units.scalarBytes.toNat ≤ r

section Paced

variable (h : Paced n r P)
include h

theorem Paced.call {p : Primitive} (hp : p.Within n r) :
    Keeps P (execute [p] : Action σ RemoteError (List Response)) := by
  apply h.keeps_execute
  simpa using hp

theorem Paced.storable (buffer : String) : Storable P P buffer := by
  intro offset data size
  by_cases hsize : size ≤ n
  · have hwrites : Writes buffer offset data size (fun _ => P) P := fun _ _ _ hle _ _ =>
      h.call (Nat.le_trans hle hsize)
    exact hwrites.chunked fun _ hs => hs
  · refine (triple_requireUp fun _ hs => hs).bind fun _ => ?_
    refine Triple.bind (Q := fun limit s => limit = n ∧ P s)
      (Triple.view fun s hs => ⟨h.limit s hs, hs⟩) fun limit => Triple.assume fun hlimit => ?_
    subst hlimit
    refine Triple.bind (Q := fun _ _ => False)
      (Triple.require (fun _ hle _ => hsize hle.2) fun _ _ hs => hs) fun _ _ hf => hf.elim

theorem Paced.loadable {m : Mem} (hm : m.units.scalarBytes.toNat ≤ r) : Loadable P P m := by
  refine Loadable.of_windows (fun _ hs => hs) fun limit offset total count s hs => ?_
  have hlimit : limit = n := hs.1.symm.trans (h.limit s hs.2)
  have hsize : m.readSize limit ≤ r := by
    have hmax := m.readSize_le_max limit
    have hle := h.le
    omega
  exact triple_windows (fun _ hs => hs)
    (fun position length hlen => h.call (Nat.le_trans hlen hsize)) s hs.2

variable {d : Driver}

theorem Paced.dmaWrite {stream : List UInt8} :
    Keeps (Driving.Over d P) (Driving.dmaWrite stream : Driving.Act σ Unit) := by
  refine Driving.keeps_dmaWrite (fun _ => h.call trivial) (h.storable _) ?_ (h.call trivial)
  apply h.keeps_execute
  simp [Primitive.Within]

theorem Paced.simple (hd : d.Reads r) {op : Operation} (hs : op.Simple) :
    KeepsOr (Driving.Over d P) (fun _ _ => False) (Driving.perform op : Driving.Act σ Unit) :=
  Driving.keepsOr_simple (fun _ => h.storable _) (fun bank => h.loadable (hd bank)) hs
    (fun _ _ => h.dmaWrite.or) fun _ _ _ _ _ => h.dmaWrite.or

theorem Paced.close :
    Keeps (fun t : Driving σ => t.driver.Reads r ∧ P t.remote)
      (Driving.close : Driving.Act σ Unit) := by
  intro t ht
  have hrelease : ∀ p ∈ Driving.releases t.driver.config,
      Keeps P (Remote.execute [p] : Action σ RemoteError (List Response)) := by
    intro p hp
    apply h.call
    simp only [Driving.releases, List.mem_cons, List.not_mem_nil, or_false] at hp
    rcases hp with rfl | rfl | rfl <;> trivial
  have hshut : ∀ u : Driving σ, Driving.Shut t.driver u ∧ P u.remote →
      u.driver.Reads r ∧ P u.remote := by
    rintro u ⟨⟨loaded, hu⟩, hp⟩
    rw [hu]
    exact ⟨ht.1, hp⟩
  exact ((Driving.triple_close h.keeps_down hrelease).weaken (fun _ h => h) (fun _ => hshut)
    hshut) t ⟨rfl, ht.2⟩

/-- Whatever a driver is asked for keeps within the bounds. -/
theorem Paced.after {t : Driving σ} (ht : t.driver.Reads r ∧ P t.remote) (op : Operation) :
    (t.after op).driver.Reads r ∧ P (t.after op).remote := by
  by_cases hop : op = .close
  · subst hop
    exact h.close.state ht
  · obtain ⟨⟨generation, outstanding, loaded, hdriver⟩, hp⟩ := Driving.after_of_keeps
      (A := fun _ => True) (fun _ _ _ _ => trivial) (fun _ hs _ => h.simple ht.1 hs) trivial hop
      ht.2
    rw [hdriver]
    exact ⟨ht.1, hp⟩

theorem Paced.configureNew (hd : d.Reads r) :
    Triple P (d.configureNew : Action σ DriverError Driver) (fun e s => e.Reads r ∧ P s) P := by
  intro s hs
  have hperform : KeepsOr (Driving.Over d P) (fun _ _ => False)
      (Driving.perform (.configure d.registers) : Driving.Act σ Unit) :=
    Driving.keepsOr_perform (fun _ ho => ho.1) (A := fun _ => True) (fun _ _ _ _ => trivial)
      (fun _ hs _ => h.simple hd hs) trivial nofun nofun
  have hconfigure : Keeps (Driving.Over d P)
      (Driving.configure d.registers : Driving.Act σ Nat) :=
    (KeepsOr.discard_iff.mp hperform).keeps
  have hover := hconfigure.state (s := ⟨d, s⟩) ⟨⟨d.probe.generation, d.probe.outstanding, rfl⟩, hs⟩
  rw [configureNew_run]
  cases hr : (Driving.configure d.registers).run ⟨d, s⟩ with
  | mk outcome t =>
    rw [hr] at hover
    obtain ⟨⟨generation, outstanding, hdriver⟩, hp⟩ := hover
    have ht : t.driver.Reads r ∧ P t.remote := ⟨hdriver ▸ hd, hp⟩
    cases outcome with
    | ok polls => exact ht
    | error e => exact (h.close.state ht).2

theorem Paced.new {arch : Architecture} (config : Config) (hr : arch.dataType.scalarBytes ≤ r) :
    Triple P (Driver.new arch config : Action σ DriverError Driver)
      (fun d s => d.Reads r ∧ P s) P := by
  have hstop : ∀ s, P s → P s := fun _ hs => hs
  have hspec : ∀ {α : Type} {x : Except SpecError α},
      Keeps P (ofSpec x : Action σ DriverError α) := triple_checkSpec hstop
  have htear : ∀ {α : Type} {e : DriverError},
      Keeps P (Driver.tearDown e : Action σ DriverError α) := fun {_ _} =>
    Keeps.bind (Keeps.attempt h.keeps_down) fun _ => Keeps.fail
  have hallocate : ∀ size, Keeps P (Driver.allocate config size : Action σ DriverError _) := by
    intro size
    refine Keeps.bind (Keeps.attempt (h.keeps_execute _ (by simp [Primitive.Within])))
      fun outcome => ?_
    cases outcome with
    | error e => exact htear
    | ok responses =>
      dsimp only
      split
      · exact Keeps.pure
      · exact htear
  refine Triple.bind hspec fun _ => Triple.bind hspec fun _ => Triple.bind hspec fun _ => ?_
  refine Triple.bind (Q := fun _ => P) (Triple.view fun _ hs => hs) fun _ => ?_
  refine Triple.bind (triple_check hstop) fun _ => Triple.bind (Triple.mapError h.keeps_up)
    fun _ => ?_
  refine Triple.bind (triple_check hstop) fun size => Triple.bind (hallocate size)
    fun ⟨first, second⟩ => ?_
  apply h.configureNew
  intro bank
  rw [← toNat_scalarBytes arch] at hr
  cases bank <;> exact hr

end Paced

end Host

namespace Sim.Simulator

open Remote

def Unrelated (e : RemoteError) : Prop :=
  ∀ length limit, e ≠ .payloadTooLarge length limit

def Takes (n : Nat) (s : Simulator) : Prop :=
  s.config.maxPayload = n

variable {n : Nat}

theorem confined_stepDevice : Confined (Takes n) Unrelated stepDevice := by
  refine Confined.of_raises (keeps_settings_stepDevice (P := fun c _ => c.maxPayload = n)) ?_
  refine Raises.view fun s _ => ?_
  split
  · exact Raises.pure
  · refine Raises.bind Triple.top (fun t e u _ hr => ?_) fun _ => Raises.pure
    rw [onMachine_run] at hr
    split at hr <;> cases hr
    exact fun _ _ => nofun

theorem unrelated_of_alloc {m : Memory} {name : String} {size : UInt64} {e : RemoteError}
    (h : m.alloc name size = .error e) : Unrelated e := by
  rintro length limit rfl
  unfold Memory.alloc at h
  split at h
  · cases h
  · split at h
    · cases h
    · split at h <;> cases h

theorem unrelated_of_dealloc {m : Memory} {name : String} {e : RemoteError}
    (h : m.dealloc name = .error e) : Unrelated e := by
  rintro length limit rfl
  unfold Memory.dealloc at h
  split at h <;> cases h

theorem unrelated_of_checkWindow {m : Memory} {name : String} {offset length : UInt64}
    {e : RemoteError} (h : m.checkWindow name offset length = .error e) : Unrelated e := by
  rintro length limit rfl
  unfold Memory.checkWindow at h
  split at h
  · cases h
  · split at h <;> cases h

theorem confined_apply {p : Primitive} (hp : p.Within n n) :
    Confined (Takes n) Unrelated (apply p) := by
  have hcount : ∀ f, Confined (Takes n) Unrelated (count f) := fun _ => Confined.update fun _ h => h
  have hmemory : ∀ f, Confined (Takes n) Unrelated (updateMemory f) :=
    fun _ => Confined.update fun _ h => h
  have hpayload : ∀ {length : Nat}, length ≤ n →
      Confined (Takes n) Unrelated (checkPayload length) :=
    fun hle => Confined.view fun s hs => Confined.require fun hn => absurd (hs ▸ hle) hn
  have hchannel : ∀ name, Confined (Takes n) Unrelated (checkChannel name) :=
    fun _ => Confined.view fun _ _ => Confined.require fun _ _ _ => nofun
  have hwindow : ∀ name offset length,
      Confined (Takes n) Unrelated (checkWindow name offset length) :=
    fun _ _ _ => Confined.view fun _ _ => Confined.ofExcept fun _ => unrelated_of_checkWindow
  cases p with
  | bufferAlloc name size =>
    refine Confined.view fun _ _ => (Confined.ofExcept fun _ => unrelated_of_alloc).bind fun _ => ?_
    exact (hmemory _).bind fun _ => Confined.pure
  | bufferDealloc name =>
    refine Confined.bind (Confined.view fun _ _ => ?_) fun _ => Confined.pure
    exact (Confined.ofExcept fun _ => unrelated_of_dealloc).bind fun _ => hmemory _
  | bufferWrite name offset data =>
    refine Confined.bind (Confined.view fun _ _ => ?_) fun _ => Confined.pure
    refine (hcount _).bind fun _ => Confined.view fun _ _ => ?_
    refine Confined.bind (Confined.require fun _ _ _ => nofun) fun _ => ?_
    refine (hpayload hp).bind fun _ => (hwindow _ _ _).bind fun _ => ?_
    exact (hmemory _).bind fun _ => hcount _
  | bufferRead name offset length =>
    refine (hpayload hp).bind fun _ => (hwindow _ _ _).bind fun _ => Confined.view fun _ _ => ?_
    exact (hcount _).bind fun _ => Confined.pure
  | dmaAlloc name => exact Confined.bind (Confined.update fun _ h => h) fun _ => Confined.pure
  | dmaWrite name source =>
    refine Confined.bind ((hchannel name).bind fun _ => Confined.view fun s _ => ?_)
      fun _ => Confined.pure
    cases s.memory.region? source with
    | none => exact Confined.fail fun _ _ => nofun
    | some region =>
      refine Confined.view fun t _ => ?_
      cases instructions t.layout region.contents.data.toList with
      | error fault => exact Confined.fail fun _ _ => nofun
      | ok queued => exact Confined.bind (Confined.update fun _ h => h) fun _ => hcount _
  | dmaWait name timeout => exact (hchannel name).bind fun _ => Confined.pure
  | dmaDealloc name =>
    refine Confined.bind ((hchannel name).bind fun _ => ?_) fun _ => Confined.pure
    exact Confined.update fun _ h => h

theorem confined_execute {batch : Batch} (hb : ∀ p ∈ batch, p.Within n n) :
    Confined (Takes n) Unrelated (execute batch) := by
  have happly : Confined (Takes n) Unrelated (applyAll batch) := by
    induction batch with
    | nil => exact Confined.pure
    | cons p rest ih =>
      obtain ⟨hp, hrest⟩ := List.forall_mem_cons.mp hb
      exact (confined_apply hp).bind fun _ => (ih hrest).bind fun _ => Confined.pure
  refine Confined.view fun _ _ => Confined.bind (Confined.require fun _ _ _ => nofun) fun _ => ?_
  refine Confined.bind (Confined.update fun _ h => h) fun _ => happly.bind fun _ => ?_
  exact confined_stepDevice.bind fun _ => Confined.pure

theorem steady : Steady Simulator where
  keeps_up _ := Keeps.update fun _ h => h
  keeps_down _ := Keeps.update fun _ h => h
  keeps_execute n batch := keeps_settings_execute (P := fun c _ => c.maxPayload = n) batch

end Sim.Simulator

namespace Remote

structure Entry.Ruled (n r : Nat) (C : RemoteError → Prop) (entry : Entry) : Prop where
  within : ∀ batch, entry.request = .execute batch → ∀ p ∈ batch, p.Within n r
  refused : ∀ e, entry.refusal = some e → C e

variable {σ : Type} [Service σ] {n r : Nat} {C : RemoteError → Prop}

def Ledger.Ruled (n r : Nat) (C : RemoteError → Prop) (l : Ledger σ) : Prop :=
  Service.maxPayload l.remote = n ∧ ∀ entry ∈ l.entries, entry.Ruled n r C

theorem Ledger.keeps_note {α : Type} {request : Request} {a : Action σ RemoteError α}
    (ha : Confined (fun s : σ => Service.maxPayload s = n) C a)
    (hb : ∀ batch, request = .execute batch → ∀ p ∈ batch, p.Within n r) :
    Keeps (Ledger.Ruled n r C) (Ledger.note request a) := by
  have hnote : ∀ l : Ledger σ, l.Ruled n r C → ((Ledger.note request a).run l).2.Ruled n r C := by
    rintro l ⟨hlimit, hentries⟩
    obtain ⟨hrefused, hkept⟩ := Action.confined_iff.mp ha l.remote hlimit
    rw [Ledger.note_run]
    refine ⟨hkept, fun entry hm => ?_⟩
    rcases List.mem_append.mp hm with hm | hm
    · exact hentries entry hm
    · rw [List.mem_singleton.mp hm]
      refine ⟨hb, fun e he => hrefused e ?_⟩
      cases hr : (a.run l.remote).1 with
      | ok x =>
        rw [hr] at he
        cases he
      | error e' =>
        rw [hr] at he
        cases he
        rfl
  exact .of_run (fun l x t hl hr => by simpa [hr] using hnote l hl)
    fun l e t hl hr => by simpa [hr] using hnote l hl

end Remote

namespace Host

open Remote Sim

variable {σ : Type} [Service σ] {n r : Nat} {C : RemoteError → Prop}

theorem paced_ledger (hle : n ≤ r)
    (hup : Confined (fun s : σ => maxPayload s = n) C (up : Action σ RemoteError Unit))
    (hdown : Confined (fun s : σ => maxPayload s = n) C (down : Action σ RemoteError Unit))
    (hexecute : ∀ batch : Batch, (∀ p ∈ batch, p.Within n r) →
      Confined (fun s : σ => maxPayload s = n) C
        (execute batch : Action σ RemoteError (List Response))) :
    Paced n r (Ledger.Ruled n r C : Ledger σ → Prop) where
  limit _ h := h.1
  le := hle
  keeps_up := Ledger.keeps_note hup nofun
  keeps_down := Ledger.keeps_note hdown nofun
  keeps_execute batch hb := Ledger.keeps_note (hexecute batch hb) fun _ he => by cases he; exact hb

/-- All that an instance is asked for by a driver that is made on it and does some operations. -/
def requests (arch : Architecture) (config : Config) (s : σ) (history : List Operation) :
    List Entry :=
  match (Driver.new arch config).run (⟨s, []⟩ : Ledger σ) with
  | (.ok d, l) => ((⟨d, l⟩ : Driving (Ledger σ)).afterAll history).remote.entries
  | (.error _, l) => l.entries

theorem ruled_requests {arch : Architecture} {config : Config} {s : σ} {history : List Operation}
    (h : Paced n r (Ledger.Ruled n r C : Ledger σ → Prop)) (hs : maxPayload s = n)
    (hr : arch.dataType.scalarBytes ≤ r) {entry : Entry}
    (he : entry ∈ requests arch config s history) : entry.Ruled n r C := by
  have hfresh : Ledger.Ruled n r C (⟨s, []⟩ : Ledger σ) := ⟨hs, nofun⟩
  have hnew := h.new config hr _ hfresh
  unfold requests at he
  cases hrun : (Driver.new arch config).run (⟨s, []⟩ : Ledger σ) with
  | mk outcome l =>
    rw [hrun] at hnew he
    cases outcome with
    | ok d =>
      have hall := Driving.afterAll_induction
        (P := fun t : Driving (Ledger σ) => t.driver.Reads r ∧ Ledger.Ruled n r C t.remote)
        (fun _ op ht => h.after ht op) (h := ⟨d, l⟩) hnew history
      exact hall.2.2 entry he
    | error e => exact hnew.2 entry he

/-- Whatever a driver is asked for and whatever comes of it, its calls write no more bytes than the
instance takes, and read no more than these or one scalar. So the simulator never refuses a payload
for its length if it takes one scalar. -/
theorem payloads_within (arch : Architecture) (config : Config) (history : List Operation) :
    (∀ (σ : Type) [Service σ] (s : σ), Steady σ →
      ∀ entry ∈ requests arch config s history, ∀ batch, entry.request = .execute batch →
        ∀ p ∈ batch, p.Within (maxPayload s) (max (maxPayload s) arch.dataType.scalarBytes)) ∧
    ∀ s : Simulator, arch.dataType.scalarBytes ≤ maxPayload s →
      ∀ entry ∈ requests arch config s history, ∀ length limit,
        entry.refusal ≠ some (.payloadTooLarge length limit) := by
  constructor
  · intro σ _ s hσ entry he
    have hpaced := paced_ledger (σ := σ) (C := fun _ => True)
      (Nat.le_max_left (maxPayload s) arch.dataType.scalarBytes)
      ((hσ.keeps_up _).confined fun _ => trivial) ((hσ.keeps_down _).confined fun _ => trivial)
      fun batch _ => (hσ.keeps_execute _ batch).confined fun _ => trivial
    exact (ruled_requests hpaced rfl (Nat.le_max_right ..) he).within
  · intro s hs entry he length limit hrefused
    have hpaced := paced_ledger (σ := Simulator) (C := Simulator.Unrelated)
      (Nat.le_refl (maxPayload s)) (Confined.update fun _ h => h) (Confined.update fun _ h => h)
      fun batch hb => Simulator.confined_execute hb
    exact (ruled_requests hpaced rfl hs he).refused _ hrefused length limit rfl

def narrow (limit : Nat) : Option Simulator :=
  (Simulator.ofArchitecture smallArch
    { Sim.Config.default with maxPayload := limit, baseAddress := 0 }).toOption

def narrowConfig (limit : Nat) : Config :=
  { Config.default with chunkSize := .ofNat limit, flush := ⟨.zero, .zero⟩ }

theorem payloads_within_narrow :
    ∃ s ∈ narrow 3, maxPayload s = 3 ∧
      (requests smallArch (narrowConfig 3) s [.flush, .close]).length = 28 ∧
      (∀ entry ∈ requests smallArch (narrowConfig 3) s [.flush, .close], ∀ batch,
        entry.request = .execute batch → ∀ p ∈ batch,
          p.Within (maxPayload s) (max (maxPayload s) smallArch.dataType.scalarBytes)) ∧
      ∀ entry ∈ requests smallArch (narrowConfig 3) s [.flush, .close], ∀ length limit,
        entry.refusal ≠ some (.payloadTooLarge length limit) := by
  obtain ⟨s, hs⟩ : ∃ s, narrow 3 = some s := Option.isSome_iff_exists.mp (by decide +kernel)
  have hfacts : ∀ s ∈ narrow 3, maxPayload s = 3 ∧
      (requests smallArch (narrowConfig 3) s [.flush, .close]).length = 28 := by decide +kernel
  obtain ⟨hlimit, hlength⟩ := hfacts s hs
  have hbounds := payloads_within smallArch (narrowConfig 3) [.flush, .close]
  exact ⟨s, hs, hlimit, hlength, hbounds.1 Simulator s Simulator.steady,
    hbounds.2 s (hlimit ▸ by decide)⟩

/-- Where the instance takes single bytes, the first poll asks for the two bytes of a scalar. -/
theorem payload_exceeded :
    ∃ s ∈ narrow 1, (narrowConfig 1).validate (maxPayload s) = .ok () ∧
      ⟨.execute [.bufferRead "d0" 2 2], some (.payloadTooLarge 2 1)⟩ ∈
        requests smallArch (narrowConfig 1) s [] := by
  obtain ⟨s, hs⟩ : ∃ s, narrow 1 = some s := Option.isSome_iff_exists.mp (by decide +kernel)
  have hfacts : ∀ s ∈ narrow 1, (narrowConfig 1).validate (maxPayload s) = .ok () ∧
      ⟨.execute [.bufferRead "d0" 2 2], some (.payloadTooLarge 2 1)⟩ ∈
        requests smallArch (narrowConfig 1) s [] := by decide +kernel
  exact ⟨s, hs, hfacts s hs⟩

end Host

end TensorUnit
