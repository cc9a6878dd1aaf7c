import TensorUnit.Proofs.Host.Inputs
import TensorUnit.Proofs.Host.Refinement

namespace TensorUnit.Host

open TensorUnit.Action (Triple Keeps)
open Remote Sim
open Tcu (Instruction)

namespace Driving

/-- Tensors by name, each made of what some regions of its name hold, in their order. -/
structure Gathered (values : Placement → List Double) (regions : List Placement) (t : Tensors) :
    Prop where
  names : ∀ name, name ∈ t.map Prod.fst ↔ ∃ region ∈ regions, region.name = name
  nodup : (t.map Prod.fst).Nodup
  tensors : ∀ p ∈ t, p.2 = (regions.filter fun region => region.name = p.1).flatMap values

def gather (values : Placement → List Double) : Tensors → List Placement → Tensors :=
  List.foldl fun t region => extend region.name (values region) t

section Gather

variable {name key : String} {more : List Double} {t : Tensors}

theorem mem_names_extend :
    key ∈ (extend name more t).map Prod.fst ↔ key = name ∨ key ∈ t.map Prod.fst := by
  induction t with
  | nil => simp [extend]
  | cons p t ih =>
    by_cases hp : p.1 = name
    · simp [extend, hp]
    · rw [extend, if_neg hp, List.map_cons, List.mem_cons, ih, List.map_cons, List.mem_cons]
      exact or_left_comm

theorem nodup_names_extend (h : (t.map Prod.fst).Nodup) :
    ((extend name more t).map Prod.fst).Nodup := by
  induction t with
  | nil => exact List.nodup_singleton name
  | cons p t ih =>
    rw [List.map_cons, List.nodup_cons] at h
    by_cases hp : p.1 = name
    · rw [extend, if_pos hp]
      exact List.nodup_cons.mpr h
    · rw [extend, if_neg hp, List.map_cons, List.nodup_cons, mem_names_extend]
      exact ⟨fun hmem => hmem.elim hp h.1, ih h.2⟩

theorem mem_extend (h : (t.map Prod.fst).Nodup) {p : String × List Double}
    (hp : p ∈ extend name more t) :
    p.1 ≠ name ∧ p ∈ t ∨ p.1 = name ∧ ∃ before, p.2 = before ++ more ∧
      ((name, before) ∈ t ∨ before = [] ∧ name ∉ t.map Prod.fst) := by
  induction t with
  | nil =>
    rw [List.mem_singleton.mp hp]
    exact .inr ⟨rfl, [], rfl, .inr ⟨rfl, List.not_mem_nil⟩⟩
  | cons q t ih =>
    rw [List.map_cons, List.nodup_cons] at h
    by_cases hq : q.1 = name
    · rw [extend, if_pos hq] at hp
      rcases List.mem_cons.mp hp with rfl | hp
      · exact .inr ⟨hq, q.2, rfl, .inl (hq ▸ List.mem_cons_self ..)⟩
      · refine .inl ⟨fun he => h.1 ?_, List.mem_cons_of_mem _ hp⟩
        rw [hq, ← he]
        exact List.mem_map_of_mem hp
    · rw [extend, if_neg hq] at hp
      rcases List.mem_cons.mp hp with rfl | hp
      · exact .inl ⟨hq, List.mem_cons_self ..⟩
      · rcases ih h.2 hp with ⟨hne, hp⟩ | ⟨he, before, hv, hb | ⟨hnil, hnew⟩⟩
        · exact .inl ⟨hne, List.mem_cons_of_mem _ hp⟩
        · exact .inr ⟨he, before, hv, .inl (List.mem_cons_of_mem _ hb)⟩
        · refine .inr ⟨he, before, hv, .inr ⟨hnil, fun hmem => ?_⟩⟩
          exact (List.mem_cons.mp hmem).elim (fun h => hq h.symm) hnew

variable {values : Placement → List Double} {regions : List Placement}

theorem Gathered.extend (h : Gathered values regions t) (region : Placement) :
    Gathered values (regions ++ [region]) (extend region.name (values region) t) where
  names key := by
    rw [mem_names_extend, h.names]
    constructor
    · rintro (rfl | ⟨r, hr, rfl⟩)
      · exact ⟨region, List.mem_append_right _ (List.mem_singleton_self _), rfl⟩
      · exact ⟨r, List.mem_append_left _ hr, rfl⟩
    · rintro ⟨r, hr, rfl⟩
      rcases List.mem_append.mp hr with hr | hr
      · exact .inr ⟨r, hr, rfl⟩
      · exact .inl (congrArg _ (List.mem_singleton.mp hr))
  nodup := nodup_names_extend h.nodup
  tensors p hp := by
    rw [List.filter_append, List.flatMap_append]
    rcases mem_extend h.nodup hp with ⟨hne, hp⟩ | ⟨he, before, hv, hb⟩
    · have hout : ([region].filter fun r => r.name = p.1) = [] := by simp [hne.symm]
      rw [hout, List.flatMap_nil, List.append_nil]
      exact h.tensors p hp
    · have hin : ([region].filter fun r => r.name = p.1) = [region] := by simp [he]
      rw [hin, List.flatMap_singleton, hv, he]
      rcases hb with hb | ⟨rfl, hnew⟩
      · exact congrArg (· ++ values region) (h.tensors _ hb)
      · have hnone : (regions.filter fun r => r.name = region.name) = [] := by
          refine List.filter_eq_nil_iff.mpr fun r hr hname => hnew ((h.names _).mpr ⟨r, hr, ?_⟩)
          exact of_decide_eq_true hname
        rw [hnone, List.flatMap_nil]

theorem gathered_gather (values : Placement → List Double) (regions : List Placement) :
    Gathered values regions (gather values [] regions) := by
  have hrest : ∀ rest done t, Gathered values done t →
      Gathered values (done ++ rest) (gather values t rest) := by
    intro rest
    induction rest with
    | nil => exact fun done t h => (List.append_nil done).symm ▸ h
    | cons region rest ih =>
      intro done t h
      have hnext := ih _ _ (h.extend region)
      rwa [List.append_assoc] at hnext
  exact hrest regions [] [] ⟨fun _ => by simp, List.nodup_nil, nofun⟩

end Gather

end Driving

namespace Driver

variable (d : Driver)

def tensor (m : Machine) (region : Placement) : List Double :=
  (d.scalars region.base (region.size.toNat * d.arch.arraySize.toNat) m).map
    d.arch.dataType.fromFixed

def inputBytes (values : List Double) : List UInt8 :=
  (values.map d.arch.dataType.toFixed).flatMap d.arch.dataType.scalarToBytes

def withInput (inputs : Driving.Tensors) (m : Machine) (region : Placement) : Machine :=
  match inputs.lookup region.name with
  | none => m
  | some values =>
    d.banks.put m .dram0 (region.base.toNat * d.arch.rowBytes) (d.inputBytes values)

/-- The machine with the inputs for some regions, one behind the other. -/
def withInputs (inputs : Driving.Tensors) (m : Machine) (regions : List Placement) : Machine :=
  regions.foldl (d.withInput inputs) m

/-- There is an input for the region, and it ends before the end of the bank. -/
def Suits (inputs : Driving.Tensors) (region : Placement) : Prop :=
  ∃ values, inputs.lookup region.name = some values ∧
    region.base.toNat * d.arch.rowBytes + (d.inputBytes values).length ≤ d.banks.size

variable {d} {inputs : Driving.Tensors} {m t : Machine}

theorem length_inputBytes (values : List Double) :
    (d.inputBytes values).length = values.length * d.arch.dataType.scalarBytes := by
  rw [inputBytes, DataType.length_scalars, List.length_map]

theorem Feeds.suits (hd : d.Sound) {region : Placement} {address : ScalarAddress}
    {values : List Double} (h : d.Feeds region address values)
    (hl : inputs.lookup region.name = some values)
    (hplaced : region.base.toNat + region.size.toNat ≤ d.target.toNat) :
    d.Suits inputs region := by
  refine ⟨values, hl, ?_⟩
  have hrow : d.target < d.banks.arch.depth Bank.dram0.space := by
    rw [Driver.target, hd.target]
    exact hd.row_lt (by decide) (by decide)
  have hsize := hd.fit.row_le hrow
  have hfits := Nat.mul_le_mul_right d.arch.dataType.scalarBytes h.fits
  have hend := Nat.mul_le_mul_right d.arch.rowBytes hplaced
  rw [Nat.mul_assoc] at hfits
  rw [Nat.add_mul] at hend
  change _ ≤ region.size.toNat * d.arch.rowBytes at hfits
  change _ * d.arch.rowBytes + d.arch.rowBytes ≤ _ at hsize
  rw [length_inputBytes]
  omega

theorem device_withInputs (regions : List Placement) :
    (d.withInputs inputs m regions).device = m.device := by
  induction regions generalizing m with
  | nil => rfl
  | cons region rest ih =>
    refine ih.trans ?_
    unfold withInput
    split <;> rfl

theorem hold_withInput (h : d.banks.Hold m) (region : Placement) :
    d.banks.Hold (d.withInput inputs m region) := by
  unfold withInput
  split
  · exact h
  · exact h.of_kept (Banks.kept_put ..)

theorem hold_withInputs (h : d.banks.Hold m) (regions : List Placement) :
    d.banks.Hold (d.withInputs inputs m regions) := by
  induction regions generalizing m with
  | nil => exact h
  | cons region rest ih => exact ih (hold_withInput h region)

theorem twin_withInputs (h : d.banks.Twin m t) {regions : List Placement}
    (hs : ∀ region ∈ regions, d.Suits inputs region) :
    d.banks.Twin (d.withInputs inputs m regions) (d.withInputs inputs t regions) := by
  induction regions generalizing m t with
  | nil => exact h
  | cons region rest ih =>
    refine ih ?_ fun r hr => hs r (List.mem_cons_of_mem _ hr)
    obtain ⟨values, hl, hfit⟩ := hs region (List.mem_cons_self ..)
    simp only [withInput, hl]
    exact h.put hfit

theorem withInputs_congr {e : Driver} (hb : e.banks = d.banks) (m : Machine)
    (regions : List Placement) : e.withInputs inputs m regions = d.withInputs inputs m regions := by
  have harch : e.arch = d.arch := congrArg Banks.arch hb
  have hone : e.withInput inputs = d.withInput inputs := by
    funext m region
    simp only [withInput, inputBytes, hb, harch]
  rw [withInputs, hone, withInputs]

theorem tensor_congr {e : Driver} (hb : e.banks = d.banks)
    (hc : d.banks.contents m .dram0 = d.banks.contents t .dram0) :
    e.tensor m = d.tensor t := by
  have harch : e.arch = d.arch := congrArg Banks.arch hb
  funext region
  rw [tensor, tensor, scalars, scalars, hb, hc, harch]

end Driver

namespace Driving

section Run

variable {d : Driver} (hd : d.Sound)
include hd

section Read

variable {mach : Machine} (hq : mach.device.queue = [])
include hq

theorem triple_readRegion {region : Placement} {address length : ScalarAddress}
    (ha : d.arch.units.scalar ⟨region.base⟩ = .ok address)
    (hl : d.arch.units.scalar ⟨region.size⟩ = .ok length) :
    Triple (On d (· = mach)) (read .dram0 address length.val)
      (fun raw h => raw.map d.arch.dataType.fromFixed = d.tensor mach region ∧ On d (· = mach) h)
      fun _ => True := by
  have hunits : d.arch.units.scalarBytes.toNat = d.arch.dataType.scalarBytes :=
    toNat_scalarBytes d.arch
  have haddress : address.val.toNat * d.arch.units.scalarBytes.toNat =
      region.base.toNat * d.arch.rowBytes := by
    rw [← AddressUnits.scalar_eq_ok_iff.mp ha, hunits, Nat.mul_assoc]
    rfl
  have hread : Triple (Sim.On d.layout (· = mach)) ((d.mem .dram0).read address length.val)
      (fun raw w => raw = d.scalars region.base (region.size.toNat * d.arch.arraySize.toNat) mach ∧
        Sim.On d.layout (· = mach) w) (Sim.On d.layout (· = mach)) := by
    have hpos : 0 < d.arch.units.scalarBytes.toNat := hunits ▸ scalarBytes_pos _
    rw [hd.mem .dram0]
    refine (Mem.triple_read_idle hq hpos).relax fun raw w hw => ⟨hw.1.trans ?_, hw.2⟩
    change d.arch.dataType.ofBytes ((List.drop (address.val.toNat * _) _).take
      (length.val.toNat * _)) = _
    rw [haddress, hunits, ← AddressUnits.scalar_eq_ok_iff.mp hl]
    rfl
  refine (triple_accessWith (f := fun m => m.read address length.val) (fun _ h => h) hread).weaken
    (fun _ h => ⟨h.driver, h.remote⟩) (fun raw h hh => ⟨?_, hh.1, hh.2.2⟩) fun _ _ => trivial
  rw [hh.2.1]
  rfl

theorem triple_readOutputs {done : Tensors} {regions : List Placement} :
    Triple (On d (· = mach)) (readOutputs done regions)
      (fun outputs h => outputs = gather (d.tensor mach) done regions ∧ On d (· = mach) h)
      fun _ => True := by
  induction regions generalizing done with
  | nil => exact Triple.pure fun _ h => ⟨rfl, h⟩
  | cons region rest ih =>
    refine Triple.bind (Q := fun x h => x = d ∧ On d (· = mach) h)
      (Triple.view fun _ h => ⟨h.driver, h⟩) fun x => Triple.assume fun hx => ?_
    subst hx
    refine Triple.bind (Q := fun address h =>
      x.arch.units.scalar ⟨region.base⟩ = .ok address ∧ On x (· = mach) h)
      (triple_ofSpec (fun _ _ ha hh => ⟨ha, hh⟩) fun _ _ => trivial) fun address =>
      Triple.assume fun ha => ?_
    refine Triple.bind (Q := fun length h =>
      x.arch.units.scalar ⟨region.size⟩ = .ok length ∧ On x (· = mach) h)
      (triple_ofSpec (fun _ _ hl hh => ⟨hl, hh⟩) fun _ _ => trivial) fun length =>
      Triple.assume fun hl => ?_
    refine (triple_readRegion hd hq ha hl).bind fun raw => Triple.assume fun hraw => ?_
    rw [hraw]
    exact ih

end Read

/-- A run writes its inputs, executes its program and reads its outputs, each of these behind what
the one before has left. -/
theorem triple_run_parts {inputs : Tensors} {loaded : LoadedModel}
    {P Q : Driving (Switch Simulator) → Prop} {K : Machine → Prop}
    (hl : d.loaded = some loaded) (hP : ∀ h, P h → h.driver = d)
    (hwrite : Triple P (writeInputs inputs loaded.model.inputs) (fun _ => Q) fun _ => True)
    (hexecute : Triple Q (executeStream loaded.program) (fun _ h => ∃ generation,
      On (d.probing generation false) (fun m => m.device.queue = [] ∧ K m) h) fun _ => True) :
    Triple P (run inputs)
      (fun out h => out.outputs = gather (d.tensor h.machine) [] loaded.model.outputs ∧
        h.device.queue = [] ∧ K h.machine) fun _ => True := by
  have hread : Triple (fun h => ∃ generation, On (d.probing generation false)
        (fun m => m.device.queue = [] ∧ K m) h) (readOutputs [] loaded.model.outputs)
      (fun outputs h => outputs = gather (d.tensor h.machine) [] loaded.model.outputs ∧
        h.device.queue = [] ∧ K h.machine) fun _ => True := by
    refine Triple.exists fun generation => ?_
    refine Triple.strengthen (P := fun h => ∃ mach : Machine, (mach.device.queue = [] ∧ K mach) ∧
      On (d.probing generation false) (· = mach) h) (Triple.exists fun mach =>
        Triple.assume fun hm => ?_) fun h hh => ?_
    · refine (triple_readOutputs (hd.probing ..) hm.1).relax fun outputs h hh => ?_
      obtain rfl : h.machine = mach := hh.2.remote.remote.machine
      exact ⟨hh.1, hm⟩
    · exact ⟨h.machine, hh.remote.remote.machine, hh.driver, hh.remote.plan,
        hh.remote.remote.layout, rfl⟩
  refine Triple.bind (Q := fun _ => P) ?_ fun _ => ?_
  · exact Triple.bind (Q := fun _ => P) (Triple.view fun _ h => h) fun _ =>
      Triple.require (fun _ _ h => h) fun _ _ _ => trivial
  refine Triple.bind (Q := fun (e : Driver) h => e = d ∧ P h)
    (Triple.view fun h hh => ⟨hP h hh, hh⟩) fun e => Triple.assume fun he => ?_
  subst he
  split
  · exact Triple.fail fun _ _ => trivial
  rename_i found hfound
  obtain rfl := Option.some.inj (hfound.symm.trans hl)
  refine hwrite.bind fun _ => hexecute.bind fun _ => hread.bind fun outputs => ?_
  exact Triple.pure fun _ h => h

section Model

variable {inputs : Tensors} {loaded : LoadedModel} (hp : d.Placed) (hl : d.loaded = some loaded)
  (hc : d.Considerate (.run inputs))
include hp hl hc

/-- Whatever is still queued when a run starts is executed before its program, and its outputs are
read when both are. -/
theorem triple_run_counted (c : Nat) :
    Triple (On d fun m => d.Good m ∧ Counts c m) (run inputs)
      (fun out h => out.outputs = gather (d.tensor h.machine) [] loaded.model.outputs ∧
        h.device.queue = [] ∧
        h.device.executed = c + loaded.program.length / d.layout.instructionBytes + 2)
      fun _ => True := by
  have hfills : ∀ {start : Nat} {data : List UInt8}, d.Avoids .dram0 start data.length →
      Fills (d.banks.name .dram0) start data (fun _ m => d.Good m ∧ Counts c m) fun _ => True := by
    intro start data ha
    have hgood := fills_good hd ha
    have hcount := (Banks.steady_ready hd.fit).step (J := Counts c) (E := fun _ => True)
      (fun m instr t _ hc hq he _ => hc.of_next hq he) fun _ _ _ _ _ _ _ _ => trivial
    refine ⟨fun n chunk position m h hn hchunk ho hs hfit => ?_, fun n => ?_, fun _ _ _ => trivial,
      fun n m h => hgood.small n m h.1⟩
    · exact ⟨hgood.write n chunk position m h.1 hn hchunk ho hs hfit, h.2⟩
    · exact ((triple_good hd).and hcount).weaken (fun m h => ⟨h.1, h.1.1, h.2⟩)
        (fun _ m h => ⟨h.1, h.2.2⟩) fun _ _ => trivial
  refine triple_run_parts hd hl (P := On d fun m => d.Good m ∧ Counts c m)
    (Q := On d fun m => d.Good m ∧ Counts c m)
    (K := fun m => m.device.executed = c + loaded.program.length / d.layout.instructionBytes + 2)
    (fun _ h => h.driver) ?_ ?_
  · refine triple_feed (d := d) (J := fun _ => On d fun m => d.Good m ∧ Counts c m)
      (fun _ h hh => ⟨_, _, hh.driver⟩) (fun _ _ _ => trivial)
      (fun done region rest address values hr _ hf => ?_) (List.nil_append _)
    have hmem : region ∈ loaded.model.inputs :=
      hr ▸ List.mem_append_right _ (List.mem_cons_self ..)
    have havoid : d.Avoids .dram0 _ _ := (hc.part hd hp (.input hl hmem hf)).harmless trivial
    exact (triple_write (E := fun _ => True) (fun _ _ => trivial) hd fun bytes hb =>
      hfills (hb ▸ havoid)).weaken (fun _ h => h) (fun _ _ h => h) fun _ _ => trivial
  · refine (triple_executeStream_tame hd (hc.part hd hp (.program hl)).tame c).weaken
      (fun _ h => h) (fun _ h ⟨generation, hon⟩ => ⟨generation, hon.mono fun m hm => ?_⟩)
      fun _ _ => trivial
    exact hm.2.2 rfl

omit hp hl hc in
theorem triple_writeInput_still {t : Machine} (ht : d.banks.Hold t) (hq : t.device.queue = [])
    {region : Placement} {address : ScalarAddress} {values : List Double}
    (hl : inputs.lookup region.name = some values)
    (ha : d.arch.units.scalar ⟨region.base⟩ = .ok address) (hs : d.Suits inputs region) :
    Triple (On d (Still d.banks t))
      (write .dram0 address (values.map d.arch.dataType.toFixed))
      (fun _ => On d (Still d.banks (d.withInput inputs t region))) fun _ => True := by
  obtain ⟨found, hfound, hfit⟩ := hs
  obtain rfl := Option.some.inj (hfound.symm.trans hl)
  have haddress : address.val.toNat * d.arch.units.scalarBytes.toNat =
      region.base.toNat * d.arch.rowBytes := by
    rw [← AddressUnits.scalar_eq_ok_iff.mp ha, toNat_scalarBytes, Nat.mul_assoc]
    rfl
  have hwrite : Triple (Sim.On d.layout (Still d.banks t))
      ((d.mem .dram0).write address (found.map d.arch.dataType.toFixed))
      (fun _ => Sim.On d.layout fun m => ∃ bytes,
        d.arch.dataType.toBytes (found.map d.arch.dataType.toFixed) = .ok bytes ∧
          Still d.banks (d.banks.put t .dram0 (region.base.toNat * d.arch.rowBytes)
            (bytes.take bytes.length)) m)
      (Sim.On d.layout d.banks.Hold) := by
    rw [hd.mem .dram0]
    refine Mem.triple_write (I := fun bytes n => Still d.banks
      (d.banks.put t .dram0 (region.base.toNat * d.arch.rowBytes) (bytes.take n)))
      (fun bytes hb => ⟨?_, fun m hm => ?_⟩) (fun _ h => h.hold) d.config.chunkSize.toNat_lt
    · change Fills _ (address.val.toNat * d.arch.units.scalarBytes.toNat) _ _ _
      obtain ⟨_, rfl⟩ := DataType.toBytes_eq_ok_iff.mp hb
      rw [haddress]
      exact fills_still (k := .dram0) ht hq hfit
    · exact hm.put_nil ht (Nat.le_trans (Nat.le_add_right ..) hfit)
  refine (triple_accessWith (f := fun m => m.write address (found.map d.arch.dataType.toFixed))
    (fun _ hw => hw.mono fun _ h => h.hold) hwrite).weaken (fun _ h => ⟨h.driver, h.remote⟩)
    (fun _ h hh => ⟨hh.1, hh.2.mono ?_⟩) fun _ _ => trivial
  rintro m ⟨bytes, hb, hm⟩
  obtain ⟨_, rfl⟩ := DataType.toBytes_eq_ok_iff.mp hb
  rw [List.take_length] at hm
  rw [Driver.withInput, hl]
  exact hm

theorem triple_run_still {s : Machine} (hs : d.banks.Hold s) (hq : s.device.queue = [])
    (hloc : d.banks.Located s.device) :
    Triple (On d (Still d.banks s)) (run inputs)
      (fun out h => out.outputs = gather (d.tensor h.machine) [] loaded.model.outputs ∧
        h.device.queue = [] ∧ (∀ region ∈ loaded.model.inputs, d.Suits inputs region) ∧
        d.Ran (d.withInputs inputs s loaded.model.inputs) loaded.program h.machine)
      fun _ => True := by
  let fed := d.withInputs inputs s
  have hfed : ∀ regions, d.banks.Hold (fed regions) ∧ (fed regions).device = s.device :=
    fun regions => ⟨Driver.hold_withInputs hs regions, Driver.device_withInputs regions⟩
  refine triple_run_parts hd hl (P := On d (Still d.banks s)) (Q := fun h =>
    (∀ region ∈ loaded.model.inputs, d.Suits inputs region) ∧
      On d (Still d.banks (fed loaded.model.inputs)) h)
    (K := fun m => (∀ region ∈ loaded.model.inputs, d.Suits inputs region) ∧
      d.Ran (fed loaded.model.inputs) loaded.program m) (fun _ h => h.driver) ?_ ?_
  · refine Triple.strengthen (triple_feed (d := d)
      (J := fun done h => (∀ region ∈ done, d.Suits inputs region) ∧
        On d (Still d.banks (fed done)) h)
      (fun _ h hh => ⟨_, _, hh.2.driver⟩) (fun _ _ _ => trivial)
      (fun done region rest address values hr hv hf => Triple.assume fun hdone => ?_)
      (List.nil_append _)) fun _ h => ⟨nofun, h⟩
    have hmem : region ∈ loaded.model.inputs :=
      hr ▸ List.mem_append_right _ (List.mem_cons_self ..)
    have hsuits := hf.suits hd hv (hp.le_target hd hl (List.mem_append_left _ hmem))
    obtain ⟨hold, hdevice⟩ := hfed done
    refine (triple_writeInput_still hd hold (hdevice ▸ hq) hv hf.start hsuits).relax
      fun _ h hh => ⟨fun r hr => ?_, ?_⟩
    · rcases List.mem_append.mp hr with hr | hr
      · exact hdone r hr
      · exact List.mem_singleton.mp hr ▸ hsuits
    · change On d (Still d.banks (List.foldl _ _ _)) h
      rw [List.foldl_append]
      exact hh
  · refine Triple.assume fun hsuits => ?_
    obtain ⟨hold, hdevice⟩ := hfed loaded.model.inputs
    refine (triple_executeStream_still hd hold (hdevice ▸ hq) (hdevice ▸ hloc)
      (hc.part hd hp (.program hl)).tame).relax fun _ h ⟨generation, hon⟩ => ⟨generation, ?_⟩
    exact hon.mono fun m hm => ⟨hm.1, hsuits, hm.2⟩

end Model

end Run

/-- What a run gives that finds an empty queue. -/
theorem run_idle {h h' : Driving (Switch Simulator)} {loaded : LoadedModel} {inputs : Tensors}
    {out : RunOutput} (hr : Reached Driver.Considerate h) (hopen : h.driver.closed = false)
    (hl : h.driver.loaded = some loaded) (hc : h.driver.Considerate (.run inputs))
    (hq : h.device.queue = []) (hrun : (run inputs).run h = (.ok out, h')) :
    h.driver.banks.Hold h.machine ∧ h.driver.banks.Located h.device ∧
      (∀ region ∈ loaded.model.inputs, h.driver.Suits inputs region) ∧
      h.driver.Ran (h.driver.withInputs inputs h.machine loaded.model.inputs) loaded.program
        h'.machine ∧
      out.outputs = gather (h.driver.tensor h'.machine) [] loaded.model.outputs := by
  obtain ⟨hd, hp, hon⟩ := hr.standing hopen
  have hready := hon.remote.remote.machine.1
  have hloc : h.driver.banks.Located h.machine.device :=
    hready.aimed.located fun instr hi => absurd (hq ▸ hi) List.not_mem_nil
  have hstill : On h.driver (Still h.driver.banks h.machine) h :=
    ⟨rfl, hon.remote.plan, hon.remote.remote.layout, hready.hold, rfl, fun _ => rfl⟩
  obtain ⟨hout, _, hsuits, hran⟩ :=
    (triple_run_still hd hp hl hc hready.hold hq hloc).ok hstill hrun
  exact ⟨hready.hold, hloc, hsuits, hran, hout⟩

theorem considerate_run_congr {d e : Driver} (hd : d.Sound) (he : e.Sound)
    (hb : e.banks = d.banks) (hp : e.probe = d.probe) (hl : e.loaded = d.loaded)
    {inputs : Tensors} (h : d.Considerate (.run inputs)) : e.Considerate (.run inputs) := by
  have hlayout : e.layout = d.layout := by
    rw [hd.layout, he.layout, show e.arch = d.arch from congrArg Banks.arch hb]
  refine ⟨fun _ hi => hi.elim, fun instr hi => ?_⟩
  obtain ⟨loaded, program, hloaded, hprogram, hmem⟩ := hi
  rw [Driver.target, hp]
  exact h.supplied instr ⟨loaded, program, hl ▸ hloaded, hlayout ▸ hprogram, hmem⟩

end Driving

/-- The outputs of a run are what stands in their regions when all that was queued before, its
program and the probe have been executed. Behind an empty queue that is what the program makes of
the inputs when it is executed in order, so that runs which start alike give the same, whatever the
size of a chunk or of a payload is and however far the unit gets in one call. -/
theorem run_outputs {h h' : Driving (Switch Simulator)} {loaded : LoadedModel}
    {inputs : Driving.Tensors} {out : Driving.RunOutput} (hr : Reached Driver.Considerate h)
    (hopen : h.driver.closed = false) (hl : h.driver.loaded = some loaded)
    (hc : h.driver.Considerate (.run inputs)) (hrun : (Driving.run inputs).run h = (.ok out, h')) :
    (h'.device.queue = [] ∧
      h'.device.executed = h.device.executed + h.device.queue.length +
        loaded.program.length / h.driver.layout.instructionBytes + 2 ∧
      Driving.Gathered (h.driver.tensor h'.machine) loaded.model.outputs out.outputs) ∧
    (h.device.queue = [] →
      (∃ program t, Simulator.instructions h.driver.layout loaded.program = .ok program ∧
        (Machine.executeAll (program ++ h.driver.probe.instructions)).run
          (h.driver.armed (h.driver.withInputs inputs h.machine loaded.model.inputs)) =
            (.ok (), t) ∧ h.driver.banks.Agree h'.machine t) ∧
      ∀ {g g' : Driving (Switch Simulator)} {more : Driving.RunOutput},
        Reached Driver.Considerate g → g.driver.closed = false → g.device.queue = [] →
        g.driver.banks = h.driver.banks → g.driver.probe = h.driver.probe →
        g.driver.loaded = some loaded →
        h.driver.banks.Agree h.machine g.machine →
        (Driving.run inputs).run g = (.ok more, g') →
        h.driver.banks.Agree h'.machine g'.machine ∧ more.outputs = out.outputs) := by
  obtain ⟨hd, hp, hon⟩ := hr.standing hopen
  have hcount : Driving.On h.driver (fun m => h.driver.Good m ∧
      Counts (h.device.executed + h.device.queue.length) m) h :=
    ⟨rfl, hon.remote.plan, hon.remote.remote.layout, hon.remote.remote.machine, rfl⟩
  obtain ⟨hout, hqueue, hexecuted⟩ := (Driving.triple_run_counted hd hp hl hc _).ok hcount hrun
  refine ⟨⟨hqueue, hexecuted, hout ▸ Driving.gathered_gather ..⟩, fun hq => ?_⟩
  obtain ⟨hold, hloc, hsuits, hran, _⟩ := Driving.run_idle hr hopen hl hc hq hrun
  obtain ⟨program, t, hprogram, ht, hagree⟩ := hran
  refine ⟨⟨program, t, hprogram, ht, hagree⟩, ?_⟩
  intro g g' more hg gopen gq hbanks hprobe gl hsame hrun'
  have hgd := (hg.standing gopen).sound
  have hgc := Driving.considerate_run_congr hd hgd hbanks hprobe (gl.trans hl.symm) hc
  obtain ⟨ghold, _, _, ⟨gprogram, u, hgprogram, hu, hagree'⟩, hout'⟩ :=
    Driving.run_idle hg gopen gl hgc gq hrun'
  have hlayout : g.driver.layout = h.driver.layout := by
    rw [hgd.layout, hd.layout, show g.driver.arch = h.driver.arch from congrArg Banks.arch hbanks]
  rw [hlayout] at hgprogram
  obtain rfl : program = gprogram := Except.ok.inj (hprogram.symm.trans hgprogram)
  rw [hprobe, Driver.armed_congr hbanks hprobe, Driver.withInputs_congr hbanks] at hu
  rw [hbanks] at ghold hagree'
  have htwin := Driver.twin_armed hd (Driver.twin_withInputs ⟨hold, ghold, hloc, hsame⟩ hsuits)
  have htame : h.driver.Tame program := fun instr hi =>
    hc.supplied instr ⟨loaded, program, hl, hprogram, hi⟩
  have halike := Banks.alike_executeAll hd.fit (tame_probe htame) _ _ htwin
  rw [ht, hu] at halike
  have hend := hagree.trans (halike.2.agree.trans hagree'.symm)
  refine ⟨hend, hout'.trans ?_⟩
  rw [hout, Driver.tensor_congr hbanks (hend.contents .dram0).symm]

section Small

def unitOutput : Driving.Tensors :=
  [("y", [⟨0x3ff0000000000000⟩])]

theorem run_outputs_echoing :
    ∃ h h' g g' : Driving (Switch Simulator), ∃ loaded, ∃ out more : Driving.RunOutput,
      Reached Driver.Considerate h ∧ h.driver.closed = false ∧ h.driver.loaded = some loaded ∧
      h.driver.Considerate (.run unitInput) ∧
      (Driving.run unitInput).run h = (.ok out, h') ∧ out.outputs = unitOutput ∧
      h.device.queue = [] ∧ Reached Driver.Considerate g ∧ g.driver.closed = false ∧
      g.device.queue = [] ∧ g.driver.banks = h.driver.banks ∧ g.driver.probe = h.driver.probe ∧
      g.driver.loaded = some loaded ∧ h.driver.banks.Agree h.machine g.machine ∧
      (Driving.run unitInput).run g = (.ok more, g') ∧ out.polls = 1 ∧ more.polls = 2 ∧
      (h'.device.queue = [] ∧
        h'.device.executed = h.device.executed + h.device.queue.length +
          loaded.program.length / h.driver.layout.instructionBytes + 2 ∧
        Driving.Gathered (h.driver.tensor h'.machine) loaded.model.outputs out.outputs) ∧
      h.driver.banks.Agree h'.machine g'.machine ∧ more.outputs = out.outputs := by
  obtain ⟨start, hs⟩ := exists_smallStart
  have hfacts : ∀ h ∈ smallStart, h.driver.closed = false ∧ h.driver.arch = smallArch ∧
      h.device.queue = [] ∧
      ((Driving.run unitInput).run (echoing h)).1.toOption = some ⟨unitOutput, 1⟩ ∧
      ((Driving.run unitInput).run ((echoing h).tune false (some 1) none)).1.toOption =
        some ⟨unitOutput, 2⟩ := by
    decide +kernel
  obtain ⟨hopen, harch, hq, hall, hone⟩ := hfacts start hs
  obtain ⟨h', hrun⟩ := exists_of_run hall
  obtain ⟨g', hrun'⟩ := exists_of_run hone
  have hr := reached_echoing (reached_smallStart hs) hopen harch
  have hg : Reached Driver.Considerate ((echoing start).tune false (some 1) none) := .tune _ _ _ hr
  have hc := considerate_echoing (reached_smallStart hs) hopen harch unitInput
  obtain ⟨hleft, hidle⟩ := run_outputs hr hopen rfl hc hrun
  exact ⟨_, h', _, g', _, _, _, hr, hopen, rfl, hc, hrun, rfl, hq, hg, hopen, hq, rfl, rfl, rfl,
    .refl _, hrun', rfl, rfl, hleft, (hidle hq).2 hg hopen hq rfl rfl rfl (.refl _) hrun'⟩

/-- The operation leaves both rows of the probe alone, and the unit aimed. -/
structure Driver.Reserved (d : Driver) (op : Operation) : Prop where
  considerate : d.Considerate op
  source : d.LeavesAlone op d.source
  supplied : ∀ instr, d.Supplies op instr → ¬ WritesDram0 instr d.source

def bytewiseStart : Option (Driving (Switch Simulator)) :=
  startWith smallArch { Config.default with chunkSize := 1, flush := ⟨.zero, .zero⟩ }

/-- The small unit behind a program that is overdue and writes the first row of DRAM0, but not
before it has done nothing four times. -/
def dawdling (h : Driving (Switch Simulator)) : Driving (Switch Simulator) :=
  ((h.tune true none none).after (.executeProgram
    [.noOp, .noOp, .noOp, .noOp, .move .localToDram0 0 0 0])).tune false none none

/-- When an earlier program is still queued, the output of a run depends on how far the unit gets in
one call: it is the input that was written, or what the earlier program has put there. -/
theorem run_outputs_dawdling :
    ∃ h h' g' : Driving (Switch Simulator), ∃ loaded, ∃ out more : Driving.RunOutput,
      Reached Driver.Reserved h ∧ h.driver.closed = false ∧ h.driver.loaded = some loaded ∧
      h.driver.Reserved (.run unitInput) ∧ h.remote.plan.calls = [] ∧
      h.remote.remote.config.failBufferWriteAt = none ∧
      (Driving.run unitInput).run h = (.ok out, h') ∧
      (Driving.run unitInput).run (h.tune false (some 4) none) = (.ok more, g') ∧
      out.outputs = unitOutput ∧ more.outputs = [("y", [⟨0⟩])] := by
  obtain ⟨start, hs⟩ : ∃ start, bytewiseStart = some start :=
    Option.isSome_iff_exists.mp (by decide +kernel)
  have hfacts : ∀ h ∈ bytewiseStart, (dawdling h).driver.closed = false ∧
      (dawdling h).driver.arch = smallArch ∧ (h.tune true none none).driver.target = 1 ∧
      (h.tune true none none).driver.source = 2 ∧ (dawdling h).remote.plan.calls = [] ∧
      ((Driving.run unitInput).run (echoing (dawdling h))).1.toOption = some ⟨unitOutput, 1⟩ ∧
      ((Driving.run unitInput).run ((echoing (dawdling h)).tune false (some 4) none)).1.toOption =
        some ⟨[("y", [⟨0⟩])], 1⟩ := by
    decide +kernel
  obtain ⟨hopen, harch, htarget, hsource, hplan, hall, hfour⟩ := hfacts start hs
  obtain ⟨h', hrun⟩ := exists_of_run hall
  obtain ⟨g', hrun'⟩ := exists_of_run hfour
  have hreserved : (start.tune true none none).driver.Reserved (.executeProgram
      [.noOp, .noOp, .noOp, .noOp, .move .localToDram0 0 0 0]) := by
    have hwrites : ∀ instr ∈ ([.noOp, .noOp, .noOp, .noOp, .move .localToDram0 0 0 0] :
        List Instruction), ∀ row, WritesDram0 instr row → row = 0 := by
      intro instr hi row hw
      simp only [List.mem_cons, List.not_mem_nil, or_false] at hi
      rcases hi with rfl | rfl | rfl | rfl | rfl
      · exact hw.elim
      · exact hw.elim
      · exact hw.elim
      · exact hw.elim
      · exact writesDram0_move_iff.mp hw
    refine ⟨considerate_executeProgram fun instr hi => ⟨fun hw => ?_, ?_⟩, fun _ hi => hi.elim,
      fun instr hi hw => ?_⟩
    · exact absurd (htarget.symm.trans (hwrites instr hi _ hw)) (by decide)
    · simp only [List.mem_cons, List.not_mem_nil, or_false] at hi
      rcases hi with rfl | rfl | rfl | rfl | rfl <;> exact id
    · exact absurd (hsource.symm.trans (hwrites instr hi _ hw)) (by decide)
  have hr : Reached Driver.Reserved (dawdling start) :=
    .tune _ _ _ (.perform (.tune _ _ _ (reached_startWith hs)) hreserved)
  have hconsiderate : Reached Driver.Considerate (dawdling start) :=
    hr.mono fun _ _ h => h.considerate
  have hload : Reached Driver.Reserved (echoing (dawdling start)) :=
    after_loadModel_echo (hconsiderate.standing hopen).sound hopen harch ▸
      .perform hr ⟨⟨fun _ hi => hi.elim, fun _ hi => hi.elim⟩, fun _ hi => hi.elim,
        fun _ hi => hi.elim⟩
  refine ⟨_, h', g', _, _, _, hload, hopen, rfl, ⟨considerate_echoing hconsiderate hopen harch _,
    fun _ hi => hi.elim, fun instr hi => ?_⟩, hplan, rfl, hrun, hrun', rfl, rfl⟩
  rw [supplied_echoing hconsiderate hopen harch hi]
  exact id

end Small

end TensorUnit.Host
