import TensorUnit.Proofs.Sim.Resolution
import TensorUnit.Proofs.Sim.Writes

namespace TensorUnit.Sim

open TensorUnit.Action (Triple Keeps)
open Remote

def Extent.limit (e : Extent) : Nat :=
  e.base + Memory.roundUp (max e.size 1)

theorem Extent.stop_le_limit (e : Extent) : e.stop ≤ e.limit := by
  have hle := (Memory.roundUp_spec (max e.size 1)).2.1
  rw [stop, limit]
  omega

theorem Extent.base_lt_limit (e : Extent) : e.base < e.limit := by
  have hle := (Memory.roundUp_spec (max e.size 1)).2.1
  rw [limit]
  omega

def Extent.Clear (a b : Extent) : Prop :=
  a.limit ≤ b.base ∨ b.limit ≤ a.base

namespace Memory

/-- The buffers of a memory, each at the start of a block from `start` on. -/
structure Placed (start : Nat) (m : Memory) : Prop where
  names : (m.extents.map Extent.name).Nodup
  based : ∀ e ∈ m.extents,
    start ≤ e.base ∧ e.base < m.next.toNat ∧ e.base % blockBytes.toNat = 0
  clear : m.extents.Pairwise Extent.Clear

/-- A memory beside all that it has handed out from `start` on, the first buffer first. -/
structure Charted (start : Nat) (granted : List Extent) (m : Memory) : Prop where
  next : start ≤ m.next.toNat ∧ m.next.toNat % blockBytes.toNat = 0
  names : (m.extents.map Extent.name).Nodup
  based : ∀ e ∈ granted,
    start ≤ e.base ∧ e.limit ≤ m.next.toNat ∧ e.base % blockBytes.toNat = 0
  upwards : granted.Pairwise fun a b => a.limit ≤ b.base
  held : ∀ e ∈ m.extents, e ∈ granted

namespace Charted

variable {start : Nat} {granted : List Extent} {m m' : Memory} {name : String}

theorem congr (h : m.Charted start granted) (he : m'.extents = m.extents)
    (hn : m'.next = m.next) : m'.Charted start granted := by
  obtain ⟨next, names, based, upwards, held⟩ := h
  exact ⟨by rwa [hn], by rwa [he], by rwa [hn], upwards, by rwa [he]⟩

theorem alloc (h : m.Charted start granted) {size address : UInt64}
    (ha : m.alloc name size = .ok (address, m')) :
    m'.Charted start (granted ++ [⟨name, address.toNat, size.toNat⟩]) := by
  obtain ⟨hfree, rfl, hnext, hperm⟩ := alloc_spec ha
  obtain ⟨hmod, hle, _⟩ := roundUp_spec (max size.toNat 1)
  refine ⟨⟨?_, ?_⟩, ?_, fun e he => ?_, ?_, fun e he => ?_⟩
  · have hstart := h.next.1
    omega
  · rw [hnext, Nat.add_mod, h.next.2, hmod]
    rfl
  · refine (hperm.map Extent.name).nodup_iff.mpr (List.nodup_cons.mpr ⟨fun hn => ?_, h.names⟩)
    obtain ⟨e, he, hname⟩ := List.mem_map.mp hn
    exact name_ne_of_region? hfree e he hname
  · rcases List.mem_append.mp he with he | he
    · obtain ⟨hstart, hlimit, hbase⟩ := h.based e he
      exact ⟨hstart, by omega, hbase⟩
    · obtain rfl := List.mem_singleton.mp he
      exact ⟨h.next.1, Nat.le_of_eq hnext.symm, h.next.2⟩
  · refine List.pairwise_append.mpr ⟨h.upwards, List.pairwise_singleton .., fun a ha b hb => ?_⟩
    obtain rfl := List.mem_singleton.mp hb
    exact (h.based a ha).2.1
  · rcases List.mem_cons.mp (hperm.mem_iff.mp he) with rfl | he
    · exact List.mem_append_right _ (List.mem_singleton.mpr rfl)
    · exact List.mem_append_left _ (h.held e he)

theorem dealloc (h : m.Charted start granted) (hd : m.dealloc name = .ok m') :
    m'.Charted start granted := by
  obtain ⟨hnext, hextents⟩ := dealloc_spec hd
  have hsub : m'.extents.Sublist m.extents := hextents ▸ List.filter_sublist
  exact ⟨hnext ▸ h.next, (hsub.map _).nodup h.names, hnext ▸ h.based, h.upwards,
    fun e he => h.held e (hsub.subset he)⟩

theorem clear (h : m.Charted start granted) : m.clear.Charted start granted :=
  ⟨h.next, .nil, h.based, h.upwards, fun _ he => nomatch he⟩

theorem write (h : m.Charted start granted) (name : String) (offset : UInt64)
    (data : List UInt8) : (m.write name offset data).Charted start granted :=
  h.congr (extents_write ..) rfl

theorem placed (h : m.Charted start granted) : m.Placed start := by
  refine ⟨h.names, fun e he => ?_, ?_⟩
  · obtain ⟨hstart, hlimit, hbase⟩ := h.based e (h.held e he)
    exact ⟨hstart, Nat.lt_of_lt_of_le e.base_lt_limit hlimit, hbase⟩
  · have : Std.Symm Extent.Clear := ⟨fun _ _ => Or.symm⟩
    have hclear : granted.Pairwise Extent.Clear := h.upwards.imp Or.inl
    refine (List.pairwise_map.mp h.names).imp_of_mem fun {a b} ha hb hne => ?_
    exact hclear.forall (h.held a ha) (h.held b hb) fun he => hne (congrArg Extent.name he)

theorem apart (h : m.Charted start granted) : m.Apart := by
  refine ⟨h.next.2, fun e he => ?_, ?_⟩
  · obtain ⟨_, hlimit, hbase⟩ := h.based e (h.held e he)
    exact ⟨Nat.le_trans e.stop_le_limit hlimit, hbase⟩
  · refine (h.placed.clear.and (List.pairwise_map.mp h.names)).imp fun {a b} hab => ?_
    refine ⟨hab.2, hab.1.imp (Nat.le_trans a.stop_le_limit) (Nat.le_trans b.stop_le_limit)⟩

end Charted

theorem charted_startingAt {base : UInt64} {m : Memory} (h : startingAt base = .ok m) :
    m.Charted (roundUp base.toNat) [] := by
  obtain ⟨hregions, hnext⟩ := startingAt_spec h
  have hextents : m.extents = [] := by rw [extents, hregions]; rfl
  refine ⟨⟨Nat.le_of_eq hnext.symm, ?_⟩, ?_, fun _ he => absurd he List.not_mem_nil, .nil, ?_⟩
  · rw [hnext]
    exact (roundUp_spec _).1
  · rw [hextents]
    exact .nil
  · rw [hextents]
    exact fun _ he => absurd he List.not_mem_nil

end Memory

namespace Simulator

def addresses (responses : List Response) : List Nat :=
  (responses.filterMap Response.address?).map UInt64.toNat

/-- What a primitive hands out. -/
def grant (s : Simulator) : Primitive → List Extent
  | .bufferAlloc name size =>
    match s.memory.alloc name size with
    | .ok (address, _) => [⟨name, address.toNat, size.toNat⟩]
    | .error _ => []
  | _ => []

def grantAll (s : Simulator) : Batch → List Extent
  | [] => []
  | p :: ps =>
    s.grant p ++ match (apply p).run s with
      | (.ok _, t) => t.grantAll ps
      | (.error _, _) => []

section Primitives

variable {P : Memory → Prop} {start : Nat} {granted : List Extent}

theorem triple_apply_memory (hdealloc : ∀ m name m', P m → m.dealloc name = .ok m' → P m')
    (hwrite : ∀ m name offset data, P m → P (m.write name offset data)) {p : Primitive}
    (hp : ∀ name size, p ≠ .bufferAlloc name size) :
    Triple (fun s => P s.memory) (apply p) (fun rs s => addresses rs = [] ∧ P s.memory)
      fun s => P s.memory := by
  have hnone : ∀ {a : Act Unit}, Keeps (fun s => P s.memory) a →
      Triple (fun s => P s.memory) (a >>= fun _ => pure [])
        (fun rs s => addresses rs = [] ∧ P s.memory) fun s => P s.memory :=
    fun ha => Triple.bind ha fun _ => Triple.pure fun _ h => ⟨rfl, h⟩
  have hcount : ∀ f, Keeps (fun s => P s.memory) (count f) := fun _ => Keeps.update fun _ h => h
  have hchannel : ∀ name, Keeps (fun s => P s.memory) (checkChannel name) :=
    fun _ => Keeps.bind Keeps.view fun _ => Keeps.require
  have hwindow : ∀ name offset length, Keeps (fun s => P s.memory)
      (checkWindow name offset length) := fun _ _ _ => Keeps.bind Keeps.view fun _ => Keeps.ofExcept
  have hpayload : ∀ length, Keeps (fun s => P s.memory) (checkPayload length) :=
    fun _ => Keeps.bind Keeps.view fun _ => Keeps.require
  cases p with
  | bufferAlloc name size => exact absurd rfl (hp name size)
  | bufferDealloc name =>
    refine hnone fun s hs => ?_
    rw [dealloc, Action.bind_run, Action.view_run]
    simp only
    rw [Action.bind_run, Action.ofExcept_run]
    cases hd : s.memory.dealloc name with
    | error e => exact hs
    | ok m => exact hdealloc _ _ _ hs hd
  | bufferWrite name offset data =>
    refine hnone (Keeps.bind Keeps.view fun _ => Keeps.bind (hcount _) fun _ => ?_)
    refine Keeps.bind Keeps.view fun _ => Keeps.bind Keeps.require fun _ => ?_
    refine Keeps.bind (hpayload _) fun _ => Keeps.bind (hwindow _ _ _) fun _ => ?_
    exact Keeps.bind (Keeps.update fun s hs => hwrite s.memory name offset data hs) fun _ =>
      hcount _
  | bufferRead name offset length =>
    refine Triple.bind (hpayload _) fun _ => Triple.bind (hwindow _ _ _) fun _ => ?_
    refine Triple.bind (Q := fun _ s => P s.memory) (Triple.view fun _ h => h) fun _ => ?_
    exact Triple.bind (hcount _) fun _ => Triple.pure fun _ h => ⟨rfl, h⟩
  | dmaAlloc name => exact hnone (Keeps.update fun _ h => h)
  | dmaWrite name source =>
    refine hnone (Keeps.bind (hchannel name) fun _ => Keeps.bind Keeps.view fun region => ?_)
    cases region with
    | none => exact Keeps.fail
    | some region =>
      refine Keeps.bind Keeps.view fun layout => ?_
      cases instructions layout region.contents.data.toList with
      | error fault => exact Keeps.fail
      | ok queued => exact Keeps.bind (Keeps.update fun _ h => h) fun _ => hcount _
  | dmaWait name timeout => exact hnone (hchannel name)
  | dmaDealloc name =>
    exact hnone (Keeps.bind (hchannel name) fun _ => Keeps.update fun _ h => h)

theorem apply_alloc_run (s : Simulator) (name : String) (size : UInt64) :
    (apply (.bufferAlloc name size)).run s =
      match s.memory.alloc name size with
      | .ok (address, memory) =>
        (.ok [.address address], { s with machine := { s.machine with memory } })
      | .error e => (.error e, s) := by
  rw [apply, alloc, Action.bind_run, Action.view_run]
  simp only
  rw [Action.bind_run, Action.ofExcept_run]
  rcases s.memory.alloc name size with _ | ⟨address, memory⟩ <;> rfl

/-- A primitive hands out what comes next, and answers with its address. -/
theorem charted_apply {s : Simulator} (h : s.memory.Charted start granted) (p : Primitive) :
    ((apply p).run s).2.memory.Charted start (granted ++ s.grant p) ∧
      ∀ rs, ((apply p).run s).1 = .ok rs → addresses rs = (s.grant p).map Extent.base := by
  by_cases hp : ∃ name size, p = .bufferAlloc name size
  · obtain ⟨name, size, rfl⟩ := hp
    rw [apply_alloc_run, grant]
    cases ha : s.memory.alloc name size with
    | error e => exact ⟨by rwa [List.append_nil], fun _ he => by cases he⟩
    | ok r =>
      obtain ⟨address, memory⟩ := r
      refine ⟨h.alloc ha, fun rs he => ?_⟩
      cases he
      rfl
  · have hnot : ∀ name size, p ≠ .bufferAlloc name size := fun name size he => hp ⟨name, size, he⟩
    have hgrant : s.grant p = [] := by
      cases p with
      | bufferAlloc name size => exact absurd rfl (hnot name size)
      | _ => rfl
    have hkeep := triple_apply_memory (P := fun m => m.Charted start granted)
      (fun _ _ _ hm hd => hm.dealloc hd) (fun _ _ _ _ hm => hm.write ..) hnot s h
    rw [hgrant, List.append_nil]
    rcases hr : (apply p).run s with ⟨e | rs, t⟩
    · rw [hr] at hkeep
      exact ⟨hkeep, fun _ he => nomatch he⟩
    · rw [hr] at hkeep
      refine ⟨hkeep.2, fun rs he => ?_⟩
      cases he
      exact hkeep.1

theorem charted_applyAll {s : Simulator} (h : s.memory.Charted start granted) (batch : Batch) :
    ((applyAll batch).run s).2.memory.Charted start (granted ++ s.grantAll batch) ∧
      ∀ rs, ((applyAll batch).run s).1 = .ok rs →
        addresses rs = (s.grantAll batch).map Extent.base := by
  induction batch generalizing s granted with
  | nil =>
    refine ⟨by rwa [grantAll, List.append_nil], fun rs he => ?_⟩
    cases he
    rfl
  | cons p rest ih =>
    obtain ⟨hfirst, haddress⟩ := charted_apply h p
    rw [applyAll, Action.bind_run, grantAll]
    rcases hr : (apply p).run s with ⟨e | first, t⟩
    · rw [hr] at hfirst
      exact ⟨by rwa [List.append_nil], fun _ he => by cases he⟩
    · rw [hr] at hfirst haddress
      obtain ⟨hrest, haddresses⟩ := ih hfirst
      simp only
      rw [Action.bind_run]
      rcases hs : (applyAll rest).run t with ⟨e | more, u⟩
      · rw [hs] at hrest
        exact ⟨by rwa [← List.append_assoc], fun _ he => by cases he⟩
      · rw [hs] at hrest haddresses
        refine ⟨by rwa [← List.append_assoc], fun rs he => ?_⟩
        cases he
        rw [List.map_append, ← haddress first rfl, ← haddresses more rfl, addresses, addresses,
          addresses, List.filterMap_append, List.map_append]

theorem charted_stepDevice {s : Simulator} (h : s.memory.Charted start granted) :
    (stepDevice.run s).2.memory.Charted start granted := by
  have hnext : Keeps (fun m : Machine => m.memory.Charted start granted) Machine.executeNext := by
    apply Machine.triple_executeNext
    · exact fun _ h _ => h
    · intro m instr queue t h _ hr
      have hk := Machine.kept_execute instr (m.withQueue queue)
      rw [hr] at hk
      exact h.congr hk.extents hk.next
    · intro m instr queue fault t h _ hr
      have hk := Machine.kept_execute instr (m.withQueue queue)
      rw [hr] at hk
      exact h.congr hk.extents hk.next
  exact (Triple.state (triple_stepDevice hnext) (s := s) ⟨rfl, h⟩).machine

end Primitives

inductive Call where
  | up
  | down
  | execute (batch : Batch)
  | tune (config : Config)

def after (s : Simulator) : Call → Simulator
  | .up => ((Service.up : Act Unit).run s).2
  | .down => ((Service.down : Act Unit).run s).2
  | .execute batch => ((Service.execute batch : Act (List Response)).run s).2
  | .tune config => { s with config }

def afterAll (s : Simulator) : List Call → Simulator
  | [] => s
  | call :: calls => (s.after call).afterAll calls

/-- What a call hands out. An instance that is down hands out nothing. -/
def granted (s : Simulator) : Call → List Extent
  | .execute batch => if s.up then s.called.grantAll batch else []
  | _ => []

def grantedAll (s : Simulator) : List Call → List Extent
  | [] => []
  | call :: calls => s.granted call ++ (s.after call).grantedAll calls

section Calls

variable {s : Simulator} {start : Nat} {before : List Extent}

theorem execute_run_down (hdown : ¬ s.up) (batch : Batch) :
    (execute batch).run s = (.error .notUp, s) := by
  rw [execute, Action.bind_run, Action.view_run]
  simp only
  rw [Action.bind_run, Action.require_run, if_neg hdown]

theorem charted_execute (h : s.memory.Charted start before) (batch : Batch) :
    ((execute batch).run s).2.memory.Charted start (before ++ s.granted (.execute batch)) ∧
      ∀ rs, ((execute batch).run s).1 = .ok rs →
        addresses rs = (s.granted (.execute batch)).map Extent.base := by
  rw [granted]
  by_cases hup : s.up = true
  · obtain ⟨hall, haddresses⟩ := charted_applyAll (s := s.called) h batch
    rw [if_pos hup, execute_run_up hup, Action.bind_run]
    rcases hr : (applyAll batch).run s.called with ⟨e | rs, t⟩
    · rw [hr] at hall
      exact ⟨hall, fun _ he => nomatch he⟩
    · rw [hr] at hall haddresses
      have hstep := charted_stepDevice hall
      simp only
      rw [Action.bind_run]
      rcases hs : stepDevice.run t with ⟨e | _, u⟩
      · rw [hs] at hstep
        exact ⟨hstep, fun _ he => nomatch he⟩
      · rw [hs] at hstep
        refine ⟨hstep, fun rs' he => ?_⟩
        cases he
        exact haddresses rs rfl
  · rw [if_neg hup, execute_run_down hup, List.append_nil]
    exact ⟨h, fun _ he => nomatch he⟩

theorem charted_after (h : s.memory.Charted start before) (call : Call) :
    (s.after call).memory.Charted start (before ++ s.granted call) := by
  cases call with
  | execute batch => exact (charted_execute h batch).1
  | up | tune =>
    rw [granted, List.append_nil]
    · exact h
    · exact fun _ he => nomatch he
  | down =>
    rw [granted, List.append_nil]
    · exact h.clear
    · exact fun _ he => nomatch he

theorem charted_afterAll (h : s.memory.Charted start before) (calls : List Call) :
    (s.afterAll calls).memory.Charted start (before ++ s.grantedAll calls) := by
  induction calls generalizing s before with
  | nil =>
    rw [grantedAll, List.append_nil]
    exact h
  | cons call calls ih =>
    rw [grantedAll, ← List.append_assoc]
    exact ih (charted_after h call)

end Calls

/-- At any time the buffers of an instance lie in blocks of their own, an access at an address comes
to the one buffer that holds its bytes, and no address is handed out twice. -/
theorem memory_in_order {arch : Architecture} {config : Config} {s₀ : Simulator}
    (h : ofArchitecture arch config = .ok s₀) (calls : List Call) :
    (s₀.afterAll calls).memory.Placed (Memory.roundUp config.baseAddress.toNat) ∧
      (s₀.afterAll calls).memory.Resolves ∧
      (s₀.afterAll calls).memory.Charted (Memory.roundUp config.baseAddress.toNat)
        (s₀.grantedAll calls) ∧
      ((s₀.grantedAll calls).map Extent.base).Nodup ∧
      ∀ batch rs, ((execute batch).run (s₀.afterAll calls)).1 = .ok rs →
        addresses rs = ((s₀.afterAll calls).granted (.execute batch)).map Extent.base := by
  have hstart : s₀.memory.Charted (Memory.roundUp config.baseAddress.toNat) [] := by
    obtain ⟨_, _, h⟩ := exists_of_bind_ok h
    obtain ⟨memory, hm, h⟩ := exists_of_bind_ok h
    obtain ⟨_, _, h⟩ := exists_of_bind_ok h
    cases h
    exact Memory.charted_startingAt hm
  have hcharted := charted_afterAll hstart calls
  rw [List.nil_append] at hcharted
  refine ⟨hcharted.placed, hcharted.apart.resolves, hcharted, ?_, fun batch rs =>
    (charted_execute hcharted batch).2 rs⟩
  exact List.pairwise_map.mpr (hcharted.upwards.imp fun {a b} hab =>
    Nat.ne_of_lt (Nat.lt_of_lt_of_le a.base_lt_limit hab))

def comings : List Call :=
  [.up, .execute [.bufferAlloc "b" 0, .bufferAlloc "a" 65536], .execute [.bufferDealloc "b"], .down,
    .up, .execute [.bufferAlloc "b" 3]]

theorem memory_in_order_comings : ∃ s₀, ofArchitecture tinyArch .default = .ok s₀ ∧
    s₀.grantedAll comings =
      [⟨"b", 0x10000000, 0⟩, ⟨"a", 0x10010000, 65536⟩, ⟨"b", 0x10020000, 3⟩] ∧
    (s₀.afterAll comings).memory.Placed 0x10000000 ∧ (s₀.afterAll comings).memory.Resolves := by
  obtain ⟨s₀, h⟩ : ∃ s₀, ofArchitecture tinyArch .default = .ok s₀ := ⟨_, rfl⟩
  have hgranted : (match ofArchitecture tinyArch .default with
      | .ok s => s.grantedAll comings
      | .error _ => []) =
      [⟨"b", 0x10000000, 0⟩, ⟨"a", 0x10010000, 65536⟩, ⟨"b", 0x10020000, 3⟩] := by decide +kernel
  rw [h] at hgranted
  obtain ⟨hplaced, hresolves, _⟩ := memory_in_order h comings
  exact ⟨s₀, h, hgranted, hplaced, hresolves⟩

end Simulator

end TensorUnit.Sim
