import TensorUnit.Proofs.Host.Preloading

namespace TensorUnit.Host

open TensorUnit.Action (Triple Keeps)
open Remote Sim

section Places

variable (arch : Architecture) (files : Files) (path : String)

/-- As many bytes of DRAM1 from the first row of a constant on. -/
def ConstRef.place (c : ConstRef) (length : Nat) : Window :=
  ⟨c.base.toNat * arch.rowBytes, length⟩

def ConstRef.region (c : ConstRef) : Window :=
  c.place arch (c.size.toNat * arch.rowBytes)

/-- The files of some constants are laid over the bytes of a memory that has room for them. -/
inductive Laid : List ConstRef → List UInt8 → List UInt8 → Prop
  | nil {bytes : List UInt8} : Laid [] bytes bytes
  | cons {c : ConstRef} {rest : List ConstRef} {before after data : List UInt8}
      (file : files.read? (Files.beside path c.fileName) = some data)
      (fits : c.base.toNat * arch.rowBytes + data.length ≤ before.length)
      (next : Laid rest (splice before (c.base.toNat * arch.rowBytes) data) after) :
      Laid (c :: rest) before after

variable {arch files path} {refs : List ConstRef} {before after : List UInt8} {i : Nat}

theorem Laid.getElem? (h : Laid arch files path refs before after)
    (hi : ∀ c ∈ refs, ∀ data, files.read? (Files.beside path c.fileName) = some data →
      ¬ (c.place arch data.length).Covers i) :
    after[i]? = before[i]? := by
  induction h with
  | nil => rfl
  | cons file fits _ ih =>
    have hrest := ih fun c hc => hi c (List.mem_cons_of_mem _ hc)
    have hout := hi _ List.mem_cons_self _ file
    exact hrest.trans ((getElem?_splice fits i).trans (if_neg hout))

theorem Window.Covers.region {c : ConstRef} {length : Nat} (h : (c.place arch length).Covers i)
    (hle : length ≤ c.size.toNat * arch.rowBytes) : (c.region arch).Covers i :=
  ⟨h.1, Nat.lt_of_lt_of_le h.2 (Nat.add_le_add_left hle _)⟩

theorem Laid.regions (h : Laid arch files path refs before after)
    (hfit : ∀ c ∈ refs, ∀ data, files.read? (Files.beside path c.fileName) = some data →
      data.length ≤ c.size.toNat * arch.rowBytes)
    (hi : ∀ c ∈ refs, ¬ (c.region arch).Covers i) : after[i]? = before[i]? :=
  h.getElem? fun c hc data hfile hcovers => hi c hc (hcovers.region (hfit c hc data hfile))

end Places

namespace Driver

structure IdleWith (d : Driver) (bytes : List UInt8) (m : Machine) : Prop where
  hold : d.banks.Hold m
  queue : m.device.queue = []
  dram1 : d.banks.contents m .dram1 = bytes

def Laying (d : Driver) (bytes data : List UInt8) (start n : Nat) (m : Machine) : Prop :=
  start + n ≤ bytes.length ∧ d.IdleWith (splice bytes start (data.take n)) m

variable {d : Driver} {bytes data : List UInt8} {start : Nat}

theorem IdleWith.length {m : Machine} (h : d.IdleWith bytes m) : bytes.length = d.banks.size := by
  rw [← h.dram1, h.hold.length_contents]

theorem IdleWith.laying {m : Machine} (h : d.IdleWith bytes m) (hs : start ≤ d.banks.size) :
    d.Laying bytes data start 0 m := by
  rw [← h.length] at hs
  refine ⟨hs, ?_⟩
  rwa [List.take_zero, splice_nil]

theorem Laying.idle {m : Machine} (h : d.Laying bytes data start data.length m) :
    start + data.length ≤ bytes.length ∧ d.IdleWith (splice bytes start data) m := by
  rwa [Laying, List.take_length] at h

theorem fills_laying :
    Fills (d.banks.name .dram1) start data (d.Laying bytes data start) fun _ => True where
  write n chunk position m hm hle hc ho _ hfit := by
    obtain ⟨hn, h⟩ := hm
    have hlen : (d.banks.contents m .dram1).length = bytes.length := by
      rw [h.dram1, length_splice (Nat.le_trans (Nat.add_le_add_left (List.length_take_le ..) _) hn)]
    change _ ≤ (d.banks.contents m .dram1).length at hfit
    rw [hlen] at hfit
    exact ⟨by omega, h.hold.write .., h.queue, Memory.bytes_write_more h.dram1 hle hc ho hfit⟩
  step _ := Banks.triple_idle fun _ h => h.2.queue
  stop _ _ _ := trivial
  small _ _ h := h.2.hold.apart.length_bytes_lt _

theorem movable_eq_nil {refs : List ConstRef} (h : ∀ c ∈ refs, c.size = 0) :
    d.movable refs = [] := by
  induction refs with
  | nil => rfl
  | cons c rest ih =>
    rw [movable, if_pos (h c List.mem_cons_self)]
    exact ih fun c' hc => h c' (List.mem_cons_of_mem c hc)

end Driver

namespace Driving

section Loads

variable {d : Driver} (hd : d.Sound) {files : Files} {path : String}
include hd

theorem triple_writeConst_idle {c : ConstRef} {offset : ByteOffset} {bytes data : List UInt8}
    (hrows : d.arch.checkRows .dram1 c.base c.size = .ok ())
    (hoffset : d.arch.units.rowBytes ⟨c.base⟩ = .ok offset) :
    Triple (On d (d.IdleWith bytes)) (writeBytes .dram1 offset data)
      (fun _ h => c.base.toNat * d.arch.rowBytes + data.length ≤ bytes.length ∧
        On d (d.IdleWith (splice bytes (c.base.toNat * d.arch.rowBytes) data)) h)
      fun _ => True := by
  have hstart : c.base.toNat * d.arch.rowBytes = offset.val.toNat := by
    rw [← AddressUnits.rowBytes_eq_ok hoffset, ← rowBytes_units, Nat.mul_assoc]
    rfl
  have hin : c.base.toNat * d.arch.rowBytes ≤ d.banks.size := by
    have hend := Architecture.checkRows_eq_ok_iff.mp hrows
    have hbase : c.base.toNat ≤ (d.arch.depth .dram1).toNat := by
      have hlt := c.base.toNat_lt
      omega
    exact Nat.le_trans (Nat.mul_le_mul_right _ hbase) (hd.fit.rows .dram1)
  rw [hstart] at hin ⊢
  have hwrite : Triple (Sim.On d.layout (d.IdleWith bytes)) ((d.mem .dram1).writeBytes offset data)
      (fun _ => Sim.On d.layout fun m => offset.val.toNat + data.length ≤ bytes.length ∧
        d.IdleWith (splice bytes offset.val.toNat data) m)
      (Sim.On d.layout fun _ => True) := by
    have hfills : Fills (d.banks.name .dram1) offset.val.toNat data
        (d.Laying bytes data offset.val.toNat) fun _ => True := Driver.fills_laying
    rw [hd.mem .dram1]
    exact (Mem.triple_writeBytes hfills d.config.chunkSize.toNat_lt).weaken
      (fun _ hw => hw.mono fun _ hm => hm.laying hin) (fun _ _ hw => hw.mono fun _ hm => hm.idle)
      fun _ h => h
  refine (triple_accessWith (f := fun m => m.writeBytes offset data)
    (fun _ hw => hw.mono fun _ _ => trivial) hwrite).weaken (fun _ h => ⟨h.driver, h.remote⟩)
    (fun _ h hh => ?_) fun _ _ => trivial
  obtain ⟨hfits, hon⟩ := hh.2.of_and
  exact ⟨hfits, hh.1, hon⟩

theorem triple_stageConsts_idle (refs : List ConstRef) (bytes : List UInt8) :
    Triple (On d (d.IdleWith bytes)) (stageConsts files path refs)
      (fun _ h => ∃ after, Laid d.arch files path refs bytes after ∧ On d (d.IdleWith after) h)
      fun _ => True := by
  induction refs generalizing bytes with
  | nil => exact Triple.pure fun _ h => ⟨bytes, .nil, h⟩
  | cons c rest ih =>
    refine Triple.bind triple_getDriver fun e => Triple.assume fun he => ?_
    subst he
    refine Triple.bind (triple_ofSpec (Q := fun _ h =>
      e.arch.checkRows .dram1 c.base c.size = .ok () ∧ On e (e.IdleWith bytes) h)
      (fun _ _ hr hh => ⟨hr, hh⟩) fun _ _ => trivial) fun _ => Triple.assume fun hrows => ?_
    refine Triple.bind (triple_readFile.weaken (fun _ h => h) (fun _ _ h => h) fun _ _ => trivial)
      fun data => Triple.assume fun hfile => ?_
    refine Triple.bind (triple_ofSpec (Q := fun offset h =>
      e.arch.units.rowBytes ⟨c.base⟩ = .ok offset ∧ On e (e.IdleWith bytes) h)
      (fun _ _ hr hh => ⟨hr, hh⟩) fun _ _ => trivial) fun offset => Triple.assume fun hoffset => ?_
    refine (triple_writeConst_idle hd hrows hoffset).bind fun _ => Triple.assume fun hfits => ?_
    exact (ih _).relax fun _ _ ⟨after, hlaid, hon⟩ => ⟨after, .cons hfile hfits hlaid, hon⟩

/-- Of constants that are moved by a unit that does not find DRAM0, none has rows. -/
theorem triple_loadAllConsts_unseen {s : Machine} (hl : ¬ d.banks.Finds s.device .dram0)
    (refs : List ConstRef) :
    Triple (Over d (Sim.On d.layout (d.Loading [] [] s))) (loadAllConsts refs)
      (fun _ _ => ∀ c ∈ refs, c.size = 0) fun _ => True := by
  induction refs with
  | nil => exact Triple.pure fun _ _ => by simp
  | cons c rest ih =>
    by_cases hz : c.size = 0
    · have hhead : (loadConsts ⟨c.base⟩ c.size : Act (Switch Simulator) Unit) = pure () := by
        rw [loadConsts, if_pos hz]
      rw [loadAllConsts, hhead, pure_bind]
      exact ih.relax fun _ _ h => by simpa [hz] using h
    · -- its rows are not moved with success, as the unit would have found DRAM0 to store the stamp
      refine Triple.bind (Q := fun _ _ => False) (Triple.of_run ?_ fun _ _ _ _ _ => trivial)
        fun _ _ h => h.elim
      intro h _ h' hover hrun
      have hloading := hover.2.remote.machine
      have hqueue : h.device.queue = [] :=
        List.eq_nil_iff_forall_not_mem.mpr fun instr hi => (hloading.queued instr hi).1 rfl
      have hheld : h.Held := Over.held hd ⟨hover.1, hover.2.mono fun _ h => h.hold⟩
      have hfind := hheld.finds_of_loadConsts hqueue hz hrun
      obtain ⟨generation, outstanding, hdriver⟩ := hover.1
      rw [hdriver] at hfind
      exact hl (hfind.congr hloading.registers.symm)

end Loads

variable {h h' : Driving (Switch Simulator)} {files : Files} {path : String}

theorem Held.loadAllConsts_dram1 (hh : h.Held) (hq : h.device.queue = []) {refs : List ConstRef}
    (hrun : (loadAllConsts refs).run h = (.ok (), h')) :
    h.driver.banks.contents h'.machine .dram1 = h.driver.banks.contents h.machine .dram1 := by
  have hfind : h.driver.movable refs = [] ∨ h.driver.banks.Finds h.device .dram0 := by
    by_cases hl : h.driver.banks.Finds h.device .dram0
    · exact .inr hl
    · exact .inl (Driver.movable_eq_nil
        ((triple_loadAllConsts_unseen hh.1 hl refs).ok (hh.loading hq [] []) hrun))
  have hloading := ((keeps_loadAllConsts hh.1 hfind fun _ hc => hc).ok
    (hh.loading hq [] (h.driver.movable refs)) hrun).2.remote.machine
  exact List.ext_getElem? fun i => hloading.dram1 i fun _ hw => absurd hw List.not_mem_nil

theorem Held.transferModel_laid (hh : h.Held) (hq : h.device.queue = []) {layout : Tcu.Layout}
    {model : Model} {loaded : LoadedModel}
    (hrun : (transferModel files path layout model).run h = (.ok loaded, h')) :
    Laid h.driver.arch files path model.consts (h.driver.banks.contents h.machine .dram1)
      (h.driver.banks.contents h'.machine .dram1) := by
  obtain ⟨hd, hon⟩ := hh
  have hidle : On h.driver (h.driver.IdleWith (h.driver.banks.contents h.machine .dram1)) h :=
    ⟨rfl, hon.remote.plan, hon.remote.remote.layout, hon.remote.remote.machine, hq, rfl⟩
  obtain ⟨_, t, hstage, hrun⟩ := Action.exists_of_bind_run hrun
  obtain ⟨after, hlaid, ht⟩ := (triple_stageConsts_idle hd model.consts _).ok hidle hstage
  have hstaged : h.driver.IdleWith after t.machine := ht.remote.remote.machine
  have hheld : t.Held := by
    rw [Held, ht.driver]
    exact ⟨hd, ht.mono fun _ hm => hm.hold⟩
  -- the program is read and checked without a call
  have hread : ∀ u : Driving (Switch Simulator), Keeps (fun s => s = u) (do
      let program ← readFile files (Files.beside path model.prog.fileName)
      Action.require (program.length % layout.instructionBytes = 0)
        (.decode (.truncated program.length layout.instructionBytes))
      return ⟨model, program, path⟩ : Act (Switch Simulator) LoadedModel) := fun u =>
    (triple_readFile.relax fun _ _ h => h.2).bind fun _ => Keeps.bind Keeps.require fun _ =>
      Keeps.pure
  suffices hmoved : h.driver.banks.contents h'.machine .dram1 =
      h.driver.banks.contents t.machine .dram1 by
    rw [hmoved, hstaged.dram1]
    exact hlaid
  split at hrun
  · obtain ⟨_, u, hmove, hrun⟩ := Action.exists_of_bind_run hrun
    have hu : h' = u := (hread u).ok rfl hrun
    have hdram1 := hheld.loadAllConsts_dram1 hstaged.queue hmove
    rw [ht.driver] at hdram1
    rw [hu]
    exact hdram1
  · have ht' : h' = t := (hread t).ok rfl hrun
    rw [ht']

end Driving

/-- A model that is loaded has had the files of its constants laid over DRAM1, and nothing else is
changed there. If no file is longer than the rows that are declared for it, these are the rows that
are changed. -/
theorem loadModel_lays {h h' : Driving (Switch Simulator)} (hr : Reached (fun _ _ => True) h)
    (hq : h.device.queue = []) {files : Files} {path : String}
    (hrun : (Driving.loadModel files path).run h = (.ok (), h')) :
    ∃ model, h.driver.admits? files path = some model ∧
      Laid h.driver.arch files path model.consts (h.driver.banks.contents h.machine .dram1)
        (h.driver.banks.contents h'.machine .dram1) ∧
      ((∀ c ∈ model.consts, ∀ data, files.read? (Files.beside path c.fileName) = some data →
          data.length ≤ c.size.toNat * h.driver.arch.rowBytes) →
        ∀ i, (∀ c ∈ model.consts, ¬ (c.region h.driver.arch).Covers i) →
          (h.driver.banks.contents h'.machine .dram1)[i]? =
            (h.driver.banks.contents h.machine .dram1)[i]?) := by
  by_cases hclosed : h.Closed
  · exact ((Driving.triple_closed hclosed).ok rfl hrun).elim
  · have hopen : h.driver.closed = false := Bool.eq_false_iff.mpr hclosed
    obtain ⟨loaded, t, hprepare, rfl⟩ := Driving.prepareModel_run_of_ok hrun
    obtain ⟨_, e, hrefused⟩ | ⟨model, hm, htransfer⟩ := Driving.prepareModel_run files path hopen
    · cases hrefused.symm.trans hprepare
    · have hlaid := (hr.held.resolve_left hclosed).transferModel_laid hq
        (htransfer.symm.trans hprepare)
      exact ⟨model, hm, hlaid, fun hfit i hi => hlaid.regions hfit hi⟩

section Small

theorem loadModel_lays_weighed : ∃ h h' : Driving (Switch Simulator),
    Reached (fun _ _ => True) h ∧ h.device.queue = [] ∧
      (Driving.loadModel (weighedFiles [1, 0] [0, 0, 0, 0]) "m").run h = (.ok (), h') ∧
      h.driver.banks.contents h.machine .dram1 = [0, 0, 0, 0, 0, 0] ∧
      h.driver.banks.contents h'.machine .dram1 = [1, 0, 0, 0, 0, 0] ∧
      Laid h.driver.arch (weighedFiles [1, 0] [0, 0, 0, 0]) "m" weighed.consts
        (h.driver.banks.contents h.machine .dram1) (h.driver.banks.contents h'.machine .dram1) ∧
      ∀ i, (∀ c ∈ weighed.consts, ¬ (c.region h.driver.arch).Covers i) →
        (h.driver.banks.contents h'.machine .dram1)[i]? =
          (h.driver.banks.contents h.machine .dram1)[i]? := by
  obtain ⟨start, hs⟩ := exists_smallStart
  have hfacts : ∀ h ∈ smallStart, h.driver.arch = smallArch ∧ h.driver.closed = false ∧
      h.device.queue = [] ∧
      h.driver.banks.contents h.machine .dram1 = [0, 0, 0, 0, 0, 0] ∧
      ((reload [1, 0] [0, 0, 0, 0]).run h).1.toOption = some () ∧
      h.driver.banks.contents ((reload [1, 0] [0, 0, 0, 0]).run h).2.machine .dram1 =
        [1, 0, 0, 0, 0, 0] := by decide +kernel
  obtain ⟨harch, hopen, hq, hbytes, hok, hbytes'⟩ := hfacts start hs
  obtain ⟨h', hreload⟩ := exists_of_run hok
  rw [hreload] at hbytes'
  have hrun := (loadModel_weighed harch hopen).trans hreload
  have hr : Reached (fun _ _ => True) start := reached_smallStart hs
  obtain ⟨model, hm, hlaid, hregions⟩ := loadModel_lays hr hq hrun
  cases hm.symm.trans (admits?_weighed harch)
  refine ⟨start, h', hr, hq, hrun, hbytes, hbytes', hlaid, hregions fun c hc data hfile => ?_⟩
  rw [List.mem_singleton.mp hc] at hfile ⊢
  cases hfile.symm.trans read_weighedFiles.2.1
  rw [harch]
  decide

/-- A file that is longer than the rows that are declared for it is written behind them. -/
theorem loadModel_strays : ∃ h h' : Driving (Switch Simulator), ∃ files path model,
    Reached (fun _ _ => True) h ∧ h.device.queue = [] ∧ h.driver.probe.outstanding = false ∧
      h.driver.admits? files path = some model ∧
      (Driving.loadModel files path).run h = (.ok (), h') ∧
      ∃ i, (∀ c ∈ model.consts, ¬ (c.region h.driver.arch).Covers i) ∧
        (h.driver.banks.contents h'.machine .dram1)[i]? ≠
          (h.driver.banks.contents h.machine .dram1)[i]? := by
  obtain ⟨start, hs⟩ := exists_smallStart
  have hfacts : ∀ h ∈ smallStart, h.driver.arch = smallArch ∧ h.driver.closed = false ∧
      h.device.queue = [] ∧ h.driver.probe.outstanding = false ∧
      ((reload [1, 0, 2, 0] [0, 0, 0, 0]).run h).1.toOption = some () ∧
      (h.driver.banks.contents ((reload [1, 0, 2, 0] [0, 0, 0, 0]).run h).2.machine .dram1)[2]? ≠
        (h.driver.banks.contents h.machine .dram1)[2]? := by decide +kernel
  obtain ⟨harch, hopen, hq, hout, hok, hbyte⟩ := hfacts start hs
  obtain ⟨h', hreload⟩ := exists_of_run hok
  rw [hreload] at hbyte
  refine ⟨start, h', weighedFiles [1, 0, 2, 0] [0, 0, 0, 0], "m", weighed, reached_smallStart hs,
    hq, hout, admits?_weighed harch, (loadModel_weighed harch hopen).trans hreload, 2, ?_, hbyte⟩
  intro c hc hcovers
  rw [List.mem_singleton.mp hc, harch] at hcovers
  exact absurd hcovers.2 (by decide)

end Small

end TensorUnit.Host
