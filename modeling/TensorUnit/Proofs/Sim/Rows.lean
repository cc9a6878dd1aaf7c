import TensorUnit.Proofs.Sim.Moves

namespace TensorUnit.Sim

open TensorUnit.Action (Triple Keeps Raises)
open Remote (DeviceFault)
open Tcu (Instruction MoveFlag StridedAddress)

namespace Machine

theorem raises_moveRows {P : Machine → Prop} {E : DeviceFault → Machine → Prop} {flag : MoveFlag}
    {scratchpad address : StridedAddress} {i count : Nat}
    (hk : ∀ localRow row, Keeps P (moveRow flag localRow row))
    (h : ∀ j localRow row, i ≤ j → j < i + count → strided? scratchpad (.ofNat j) = some localRow →
      strided? address (.ofNat j) = some row → Raises P E (moveRow flag localRow row))
    (hover : ∀ j m, i ≤ j → j < i + count →
      strided? scratchpad (.ofNat j) = none ∨ strided? address (.ofNat j) = none → P m →
        E .addressOverflow m) :
    Raises P E (moveRows flag scratchpad address i count) := by
  induction count generalizing i with
  | zero => exact Raises.pure
  | succ count ih =>
    cases hs : strided? scratchpad (.ofNat i) with
    | none =>
      rw [moveRows, hs]
      intro m e t hm hr
      cases hr
      exact hover i m (Nat.le_refl i) (by omega) (.inl hs) hm
    | some localRow =>
      cases hr : strided? address (.ofNat i) with
      | none =>
        rw [moveRows, hs, hr]
        intro m e t hm hrun
        cases hrun
        exact hover i m (Nat.le_refl i) (by omega) (.inr hr) hm
      | some row =>
        rw [moveRows, hs, hr]
        refine Raises.bind (Q := fun _ => P) (F := P)
          (a := moveRow flag localRow row) (hk localRow row)
          (h i localRow row (Nat.le_refl i) (by omega) hs hr) fun _ => ?_
        exact ih (fun j localRow row hi hj => h j localRow row (by omega) (by omega))
          fun j m hi hj => hover j m (by omega) (by omega)

end Machine

def Fetches (rows : UInt64 → Prop) : Instruction → Prop
  | .dataMove flag scratchpad _ size =>
    flag.isToLocal ∧ (∃ k : Bank, flag.remote = k.space) ∧
      ∀ i < size.toNat + 1, ∀ row, Machine.strided? scratchpad (.ofNat i) = some row → rows row
  | _ => False

theorem toNat_sub_one {n : UInt64} (hn : n ≠ 0) : (n - 1).toNat + 1 = n.toNat := by
  have hpos : n.toNat ≠ 0 := fun he => hn (UInt64.toNat_inj.mp he)
  have hle : (1 : UInt64) ≤ n := UInt64.le_iff_toNat_le.mpr (Nat.pos_of_ne_zero hpos)
  rw [UInt64.toNat_sub_of_le _ _ hle]
  exact Nat.sub_add_cancel (Nat.pos_of_ne_zero hpos)

theorem fetches_move {rows : UInt64 → Prop} {flag : MoveFlag} {k : Bank}
    {base address size : UInt64} (hk : flag.remote = k.space) (ht : flag.isToLocal)
    (h : ∀ row, base.toNat ≤ row.toNat → row.toNat ≤ base.toNat + size.toNat → rows row) :
    Fetches rows (.move flag base address size) := by
  refine ⟨ht, ⟨k, hk⟩, fun i hi row hs => ?_⟩
  have hlt := size.toNat_lt
  have hrow := Machine.toNat_strided?_unit (by omega) hs
  exact h row (by omega) (by omega)

theorem Fetches.memory {rows : UInt64 → Prop} {instr : Instruction} (h : Fetches rows instr)
    (m : Machine) : ((Machine.execute instr).run m).2.memory = m.memory := by
  cases instr with
  | dataMove flag scratchpad address size =>
    obtain ⟨ht, ⟨k, hk⟩, _⟩ := h
    have hset : ∀ row values,
        Keeps (fun t : Machine => t.memory = m.memory) (Machine.setLocalRow row values) :=
      fun _ _ => Triple.update fun ⟨⟨_, _, _, _, _, _⟩, _⟩ ht => ht
    have hload : ∀ address,
        Keeps (fun t : Machine => t.memory = m.memory) (Machine.loadRow address) := by
      refine fun address => Keeps.bind Keeps.view fun bytes => ?_
      cases bytes with
      | none => exact Keeps.fail
      | some bytes => exact Keeps.pure
    have hmoves : Keeps (fun t => t.memory = m.memory)
        (Machine.execute (.dataMove flag scratchpad address size)) := by
      refine Machine.keeps_moveRows fun j row localRow _ _ _ => Keeps.bind Keeps.view fun d =>
        Keeps.bind Keeps.require fun _ => ?_
      have hdram : Keeps (fun t : Machine => t.memory = m.memory)
          (Machine.moveDramRow flag localRow row) := by
        refine Keeps.bind Keeps.view fun d => Keeps.bind Keeps.require fun _ =>
          Machine.keeps_address.bind fun address => ?_
        rw [if_pos ht]
        exact (hload address).bind fun _ => hset _ _
      cases k <;> · rw [hk]; exact hdram
    exact hmoves.state rfl
  | noOp | matMul | loadWeights | configure => exact h.elim

namespace Banks

variable {b : Banks} {m t : Machine} {k : Bank} {flag : MoveFlag} {localRow row : UInt64}
  {scratchpad address : StridedAddress}

/-- A machine that has the banks, and whose unit finds them. -/
structure Found (b : Banks) (m : Machine) : Prop where
  hold : b.Hold m
  located : b.Located m.device

theorem Found.withQueue (h : b.Found m) (queue : List Instruction) : b.Found (m.withQueue queue) :=
  ⟨⟨h.hold.arch, h.hold.cells, h.hold.apart, h.hold.extents⟩, h.located⟩

/-- A row of a bank is where the unit looks for it: its bytes lie in the buffer of the bank and in
no other. -/
structure Resolves (b : Banks) (m : Machine) (k : Bank) (row address : UInt64) : Prop where
  found : Machine.rowAddress? m.device k.space row = some address
  region : (m.memory.region? (b.name k)).isSome ∧
    m.memory.regionAt? address b.arch.rowBytes = m.memory.region? (b.name k)
  length : (b.row m k row).length = b.arch.rowBytes
  read : m.memory.readAt? address b.arch.rowBytes = some (b.row m k row)
  write : ∀ bytes, bytes.length = b.arch.rowBytes →
    m.memory.writeAt address bytes =
      m.memory.write (b.name k) (.ofNat (row.toNat * b.arch.rowBytes)) bytes

/-- The rows that a move names are there, `count` of them on each side. -/
def InRange (b : Banks) (flag : MoveFlag) (scratchpad address : StridedAddress) (count : Nat) :
    Prop :=
  ∀ j < count,
    (∃ localRow < b.arch.localDepth, Machine.strided? scratchpad (.ofNat j) = some localRow) ∧
      ∃ row < b.arch.depth flag.remote, Machine.strided? address (.ofNat j) = some row

/-- What `count` rows of a bank that are loaded leave: each row of the scratchpad holds the last row
that was loaded into it, or is as before, and so is all else. -/
structure Loaded (b : Banks) (k : Bank) (scratchpad address : StridedAddress) (count : Nat)
    (m t : Machine) : Prop where
  memory : t.memory = m.memory
  device : t.device = { m.device with scratchpad := t.device.scratchpad }
  moved : ∀ j < count, ∀ localRow row, Machine.strided? scratchpad (.ofNat j) = some localRow →
    Machine.strided? address (.ofNat j) = some row →
    (∀ i, j < i → i < count → Machine.strided? scratchpad (.ofNat i) ≠ some localRow) →
      t.device.localRow localRow = b.arch.dataType.ofBytes (b.row m k row)
  spared : ∀ localRow, (∀ j < count, Machine.strided? scratchpad (.ofNat j) ≠ some localRow) →
    t.device.localRow localRow = m.device.localRow localRow

/-- The unit reads and writes the rows of the banks where the host does. -/
structure Agrees (b : Banks) (m : Machine) : Prop where
  resolves : ∀ k row, row < b.arch.depth k.space → ∃ address, b.Resolves m k row address
  mapped : ∀ instr fault t, (Machine.execute instr).run m = (.error fault, t) →
    ∀ address, fault ≠ .unmapped address
  loads : ∀ (k : Bank) flag scratchpad address (size : UInt64), flag.source = k.space →
    b.InRange flag scratchpad address (size.toNat + 1) →
      ∃ t, (Machine.execute (.dataMove flag scratchpad address size)).run m = (.ok (), t) ∧
        b.Loaded k scratchpad address (size.toNat + 1) m t
  faults : ∀ (k : Bank) flag scratchpad address (size : UInt64) fault t,
    flag.destination = k.space → b.InRange flag scratchpad address (size.toNat + 1) →
      (Machine.execute (.dataMove flag scratchpad address size)).run m = (.error fault, t) →
        ∃ e, fault = .scalar e
  spares : ∀ flag scratchpad address (size : UInt64) name,
    (∀ k : Bank, flag.destination = k.space → name ≠ b.name k) →
      ((Machine.execute (.dataMove flag scratchpad address size)).run m).2.memory.region? name =
        m.memory.region? name

theorem remote_of_source (h : flag.source = k.space) : flag.remote = k.space ∧ flag.isToLocal := by
  cases flag <;> cases k <;>
    simp_all [MoveFlag.source, MoveFlag.remote, MoveFlag.isToLocal, Bank.space]

theorem remote_of_destination (h : flag.destination = k.space) :
    flag.remote = k.space ∧ ¬ flag.isToLocal := by
  cases flag <;> cases k <;>
    simp_all [MoveFlag.destination, MoveFlag.remote, MoveFlag.isToLocal, Bank.space]

theorem loaded_zero (m : Machine) : b.Loaded k scratchpad address 0 m m :=
  ⟨rfl, rfl, fun _ hj => absurd hj (Nat.not_lt_zero _), fun _ _ => rfl⟩

theorem Loaded.next (hf : b.Fit) {n : Nat} (h : b.Loaded k scratchpad address n m t) (ht : b.Hold t)
    (hlocal : localRow < b.arch.localDepth) (hrow : row < b.arch.depth k.space)
    (hs : Machine.strided? scratchpad (.ofNat n) = some localRow)
    (ha : Machine.strided? address (.ofNat n) = some row) :
    b.Loaded k scratchpad address (n + 1) m
      ((Machine.setLocalRow localRow (b.arch.dataType.ofBytes (b.row t k row))).run t).2 := by
  have hset := ht.localRow_setLocalRow hlocal (ht.length_ofBytes_row hf hrow)
  have hbytes : b.row t k row = b.row m k row := by
    rw [Banks.row, contents, h.memory]
    rfl
  have hrun := Machine.setLocalRow_run localRow (b.arch.dataType.ofBytes (b.row t k row)) t
  refine ⟨?_, ?_, fun j hj localRow' row' hs' ha' hlast => ?_, fun localRow' hout => ?_⟩
  · rw [hrun]
    exact h.memory
  · rw [hrun, h.device]
  · rw [hset]
    rcases Nat.lt_succ_iff_lt_or_eq.mp hj with hj | rfl
    · have hne : localRow' ≠ localRow := fun he =>
        hlast n hj (Nat.lt_succ_self n) (he ▸ hs)
      rw [if_neg hne]
      exact h.moved j hj localRow' row' hs' ha' fun i hi hn => hlast i hi (Nat.lt_succ_of_lt hn)
    · cases hs.symm.trans hs'
      cases ha.symm.trans ha'
      rw [if_pos rfl, hbytes]
  · have hne : localRow' ≠ localRow := fun he => hout n (Nat.lt_succ_self n) (he ▸ hs)
    rw [hset, if_neg hne]
    exact h.spared localRow' fun j hj => hout j (Nat.lt_succ_of_lt hj)

section Found

variable (hf : b.Fit)
include hf

theorem Found.resolves (h : b.Found m) (hr : row < b.arch.depth k.space) :
    ∃ address, b.Resolves m k row address := by
  obtain ⟨address, r, ha, hreg, _⟩ := h.hold.rowAddress hf (h.located k) hr
  refine ⟨address, ha, ⟨hreg ▸ rfl, ?_⟩, h.hold.length_row hf hr, ?_, fun bytes hn => ?_⟩
  · exact h.hold.regionAt?_row hf (h.located k) hr ha
  · exact h.hold.readAt?_row hf (h.located k) hr ha
  · exact h.hold.writeAt_row hf (h.located k) hr ha hn

theorem Found.keeps_moveRow : Keeps b.Found (Machine.moveRow flag localRow row) := by
  intro m h
  have hkeeps : Keeps (Frame b (fun _ => True) m) (Machine.moveRow flag localRow row) :=
    Frame.keeps_moveRow hf h.hold h.located fun _ => trivial
  have hframe := hkeeps.state (.refl _ m)
  have hfound : b.Found ((Machine.moveRow flag localRow row).run m).2 :=
    ⟨h.hold.of_kept hframe.kept, hframe.located h.located⟩
  cases hr : (Machine.moveRow flag localRow row).run m with
  | mk r t =>
    rw [hr] at hfound
    cases r <;> exact hfound

/-- A row of a bank is moved, or it is no row, or the scratchpad holds what is no scalar. -/
theorem Found.raises_moveRow (hk : flag.remote = k.space) :
    Raises b.Found (fun fault _ =>
      (fault = .localRow localRow ∧ ¬ localRow < b.arch.localDepth) ∨
      (fault = .dramRow k.space row ∧ ¬ row < b.arch.depth k.space) ∨ ∃ e, fault = .scalar e)
      (Machine.moveRow flag localRow row) := by
  intro m fault t h hr
  rw [h.hold.moveRow_run hk] at hr
  by_cases hlocal : localRow < b.arch.localDepth
  · rw [if_pos hlocal, h.hold.moveDramRow_run hf (h.located k) hk hlocal] at hr
    split at hr
    · split at hr
      · cases hr
      · split at hr
        · cases hr
          exact .inr (.inr ⟨_, rfl⟩)
        · cases hr
    · cases hr
      exact .inr (.inl ⟨rfl, ‹_›⟩)
  · rw [if_neg hlocal] at hr
    cases hr
    exact .inl ⟨rfl, hlocal⟩

theorem Found.raises_mapped : Raises b.Found (fun fault _ => ∀ address, fault ≠ .unmapped address)
    (Machine.moveRow flag localRow row) := by
  have hbank : ∀ k : Bank, flag.remote = k.space → Raises b.Found
      (fun fault _ => ∀ address, fault ≠ .unmapped address)
      (Machine.moveRow flag localRow row) := fun k hk =>
    (Found.raises_moveRow hf hk).weaken (fun _ h => h) fun fault _ h address => by
      rintro rfl
      rcases h with ⟨he, _⟩ | ⟨he, _⟩ | ⟨_, he⟩ <;> cases he
  have hlocal : Raises b.Found (fun fault _ => ∀ address, fault ≠ .unmapped address)
      (Machine.moveAccumulatorRow flag localRow row) := by
    refine Raises.view fun m _ => Raises.bind (Q := fun _ _ => True) Triple.top
      (Raises.require fun _ _ _ he => nomatch he) fun _ => ?_
    split <;> exact Raises.update
  cases hs : flag.remote with
  | dram0 => exact hbank .dram0 hs
  | dram1 => exact hbank .dram1 hs
  | accumulator | scratchpad =>
    refine Raises.view fun m _ => Raises.bind (Q := fun _ => b.Found) Keeps.require
      (Raises.require fun _ _ _ he => nomatch he) fun _ => ?_
    rw [hs]
    exact hlocal

theorem Found.loads (h : b.Found m) (hk : flag.remote = k.space) (ht : flag.isToLocal)
    {size : UInt64} (hr : b.InRange flag scratchpad address (size.toNat + 1)) :
    ∃ t, (Machine.execute (.dataMove flag scratchpad address size)).run m = (.ok (), t) ∧
      b.Loaded k scratchpad address (size.toNat + 1) m t := by
  have hmoves : Triple (fun t => b.Found t ∧ b.Loaded k scratchpad address 0 m t)
      (Machine.moveRows flag scratchpad address 0 (size.toNat + 1))
      (fun _ t => b.Found t ∧ b.Loaded k scratchpad address (0 + (size.toNat + 1)) m t)
      fun _ => False := by
    refine Machine.triple_moveRows (I := fun n t => b.Found t ∧ b.Loaded k scratchpad address n m t)
      (fun j localRow row _ hj hs ha t ht' => ?_) fun j t _ hj hnone _ => ?_
    · obtain ⟨⟨_, hlocal, hs'⟩, _, hrow, ha'⟩ := hr j (by omega)
      cases hs.symm.trans hs'
      cases ha.symm.trans ha'
      rw [hk] at hrow
      have hkeeps : Keeps b.Found (Machine.moveRow flag localRow row) := Found.keeps_moveRow hf
      have hfound := hkeeps.state ht'.1
      rw [ht'.1.hold.moveRow_run hk, if_pos hlocal,
        ht'.1.hold.moveDramRow_run hf (ht'.1.located k) hk hlocal, if_pos hrow, if_pos ht]
        at hfound ⊢
      exact ⟨hfound, ht'.2.next hf ht'.1.hold hlocal hrow hs ha⟩
    · obtain ⟨⟨_, _, hs⟩, _, _, ha⟩ := hr j (by omega)
      rcases hnone with hn | hn
      · cases hn.symm.trans hs
      · cases hn.symm.trans ha
  obtain ⟨_, t, hrun, hload⟩ := hmoves.succeeds ⟨h, loaded_zero m⟩
  rw [Nat.zero_add] at hload
  exact ⟨t, hrun, hload.2⟩

theorem Found.mapped (instr : Instruction) :
    Raises b.Found (fun fault _ => ∀ address, fault ≠ .unmapped address)
      (Machine.execute instr) := by
  cases instr with
  | noOp => exact Raises.pure
  | configure register value => exact Raises.update
  | dataMove flag scratchpad address size =>
    exact Machine.raises_moveRows (fun _ _ => Found.keeps_moveRow hf)
      (fun _ _ _ _ _ _ _ => Found.raises_mapped hf) fun _ _ _ _ _ _ _ he => nomatch he
  | matMul | loadWeights => exact Raises.fail fun _ _ _ he => nomatch he

/-- Between rows that are there a move can only fail for a value that is no scalar. -/
theorem Found.faults (hk : flag.remote = k.space) {size : UInt64}
    (hr : b.InRange flag scratchpad address (size.toNat + 1)) :
    Raises b.Found (fun fault _ => ∃ e, fault = .scalar e)
      (Machine.execute (.dataMove flag scratchpad address size)) := by
  refine Machine.raises_moveRows (fun _ _ => Found.keeps_moveRow hf)
    (fun j localRow row _ hj hs ha => ?_) fun j m _ hj hnone _ => ?_
  · obtain ⟨⟨_, hlocal, hs'⟩, _, hrow, ha'⟩ := hr j (by omega)
    cases hs.symm.trans hs'
    cases ha.symm.trans ha'
    rw [hk] at hrow
    refine (Found.raises_moveRow hf hk).weaken (fun _ h => h) fun fault _ h => ?_
    exact (h.resolve_left fun h => h.2 hlocal).resolve_left fun h => h.2 hrow
  · obtain ⟨⟨_, _, hs⟩, _, _, ha⟩ := hr j (by omega)
    rcases hnone with hn | hn
    · cases hn.symm.trans hs
    · cases hn.symm.trans ha

theorem Found.spares_moveRow {name : String} {region : Option Region}
    (hn : ∀ k : Bank, flag.destination = k.space → name ≠ b.name k) :
    Keeps (fun t => b.Found t ∧ t.memory.region? name = region)
      (Machine.moveRow flag localRow row) := by
  have hset : ∀ {row : UInt64} {values : List Int},
      Keeps (fun t : Machine => t.memory.region? name = region) (Machine.setLocalRow row values) :=
    fun {_ _} => Triple.update fun ⟨⟨_, _, _, _, _, _⟩, _⟩ h => h
  have hsetAccumulator : ∀ {row : UInt64} {values : List Int},
      Keeps (fun t : Machine => t.memory.region? name = region)
        (Machine.setAccumulatorRow row values) :=
    fun {_ _} => Triple.update fun ⟨⟨_, _, _, _, _, _⟩, _⟩ h => h
  have hbank : ∀ k : Bank, flag.remote = k.space →
      Triple (fun t => b.Found t ∧ t.memory.region? name = region)
        (Machine.moveRow flag localRow row) (fun _ t => t.memory.region? name = region)
        fun t => t.memory.region? name = region := by
    rintro k hk t ⟨ht, hregion⟩
    rw [ht.hold.moveRow_run hk]
    by_cases hlocal : localRow < b.arch.localDepth
    · rw [if_pos hlocal, ht.hold.moveDramRow_run hf (ht.located k) hk hlocal]
      by_cases hrow : row < b.arch.depth k.space
      · rw [if_pos hrow]
        by_cases hto : flag.isToLocal
        · rw [if_pos hto]
          exact hset t hregion
        · rw [if_neg hto]
          cases b.arch.dataType.toBytes (t.device.localRow localRow) with
          | error e => exact hregion
          | ok bytes =>
            have hne : name ≠ b.name k := hn k (by rw [MoveFlag.destination, if_neg hto, hk])
            change (t.memory.write _ _ bytes).region? name = region
            rw [Memory.region?_write, if_neg hne]
            exact hregion
      · rw [if_neg hrow]
        exact hregion
    · rw [if_neg hlocal]
      exact hregion
  have hlocal : Keeps (fun t : Machine => t.memory.region? name = region)
      (Machine.moveAccumulatorRow flag localRow row) := by
    refine Keeps.bind Keeps.view fun d => Keeps.bind Keeps.require fun _ => ?_
    split
    · exact hset
    · exact hsetAccumulator
    · exact hsetAccumulator
  have hregion : Triple (fun t => b.Found t ∧ t.memory.region? name = region)
      (Machine.moveRow flag localRow row) (fun _ t => t.memory.region? name = region)
      fun t => t.memory.region? name = region := by
    cases hs : flag.remote with
    | dram0 => exact hbank .dram0 hs
    | dram1 => exact hbank .dram1 hs
    | accumulator | scratchpad =>
      refine Triple.strengthen ?_ fun t ht => ht.2
      refine Keeps.bind Keeps.view fun d => Keeps.bind Keeps.require fun _ => ?_
      rw [hs]
      exact hlocal
  exact ((Found.keeps_moveRow hf).and hregion).weaken (fun _ h => ⟨h.1, h⟩) (fun _ _ h => h)
    fun _ h => h

theorem Found.agrees (h : b.Found m) : b.Agrees m where
  resolves _ _ := h.resolves hf
  mapped instr fault t := Found.mapped hf instr m fault t h
  loads k flag scratchpad address size hs hr :=
    h.loads hf (remote_of_source hs).1 (remote_of_source hs).2 hr
  faults k flag scratchpad address size fault t hd hr :=
    Found.faults hf (remote_of_destination hd).1 hr m fault t h
  spares flag scratchpad address size name hn := by
    have hkeeps : Keeps (fun t => b.Found t ∧ t.memory.region? name = m.memory.region? name)
        (Machine.execute (.dataMove flag scratchpad address size)) :=
      Machine.keeps_moveRows fun _ _ _ _ _ _ => Found.spares_moveRow hf hn
    exact (hkeeps.state ⟨h, rfl⟩).2

end Found

structure Anchored (b : Banks) (m : Machine) : Prop where
  ready : b.Ready m
  queue : ∀ instr ∈ m.device.queue, ¬ ConfiguresBank instr

theorem Anchored.found (h : b.Anchored m) : b.Found m :=
  ⟨h.ready.hold, h.ready.aimed.located h.queue⟩

theorem Anchored.memory (h : b.Anchored m) {memory : Memory} (hold : b.Hold { m with memory }) :
    b.Anchored { m with memory } :=
  ⟨⟨hold, h.ready.aimed⟩, h.queue⟩

theorem Anchored.enqueue (h : b.Anchored m) {queued : List Instruction}
    (hq : ∀ instr ∈ queued, ¬ ConfiguresBank instr) :
    b.Anchored { m with device := m.device.enqueue queued } where
  ready := ⟨⟨h.ready.hold.arch, h.ready.hold.cells, h.ready.hold.apart, h.ready.hold.extents⟩,
    h.ready.aimed.append hq⟩
  queue instr hi := (List.mem_append.mp hi).elim (h.queue instr) (hq instr)

theorem keeps_anchored (hf : b.Fit) : Keeps b.Anchored Machine.executeNext := by
  refine ((steady_ready hf).step (J := fun m => ∀ instr ∈ m.device.queue, ¬ ConfiguresBank instr)
    (E := fun m => ∀ instr ∈ m.device.queue, ¬ ConfiguresBank instr) ?_ ?_).weaken
    (fun _ h => ⟨h.ready, h.queue⟩) (fun _ _ h => ⟨h.1, h.2⟩) fun _ h => ⟨h.1, h.2⟩
  · intro m instr t _ h hq _ _ i hi
    exact h i (hq ▸ List.mem_cons_of_mem _ hi)
  · intro m instr t _ _ _ hq _ i hi
    rw [hq] at hi
    cases hi

section Fetches

variable {m₀ : Machine} {rows : UInt64 → Prop}

/-- All that may have changed are certain rows of the scratchpad, and DRAM0. -/
structure Refilled (b : Banks) (rows : UInt64 → Prop) (m t : Machine) : Prop where
  kept : m.Kept t
  registers : t.device.registers = m.device.registers
  memory : ∀ name, name ≠ b.name .dram0 → t.memory.bytes name = m.memory.bytes name
  scratchpad : ∀ row, ¬ rows row → t.device.localRow row = m.device.localRow row
  accumulator : t.device.accumulator = m.device.accumulator

theorem Refilled.refl (rows : UInt64 → Prop) (m : Machine) : b.Refilled rows m m :=
  ⟨.refl m, rfl, fun _ _ => rfl, fun _ _ => rfl, rfl⟩

theorem Hold.keeps_refilled_setLocalRow (h₀ : b.Hold m₀) (hlocal : localRow < b.arch.localDepth)
    (hrow : rows localRow) {values : List Int} (hn : values.length = b.arch.arraySize.toNat) :
    Keeps (b.Refilled rows m₀) (Machine.setLocalRow localRow values) := by
  have hkept : ∀ m, b.Refilled rows m₀ m →
      b.Refilled rows m₀ ((Machine.setLocalRow localRow values).run m).2 := by
    intro m hm
    have hk : Keeps m₀.Kept (Machine.setLocalRow localRow values) := Machine.keeps_setLocalRow
    have hset := (h₀.of_kept hm.kept).localRow_setLocalRow hlocal hn
    rw [Machine.setLocalRow_run] at hset ⊢
    refine ⟨hk m hm.kept, hm.registers, hm.memory, fun other ho => ?_, hm.accumulator⟩
    have hne : other ≠ localRow := fun he => ho (he ▸ hrow)
    rw [hset, if_neg hne]
    exact hm.scratchpad other ho
  exact hkept

/-- Wherever the unit takes a bank to be, a row that it loads changes one row of the scratchpad. -/
theorem Hold.keeps_refilled_moveRow (h₀ : b.Hold m₀) (ht : flag.isToLocal)
    (hk : flag.remote = k.space) (hrow : rows localRow) :
    Keeps (b.Refilled rows m₀) (Machine.moveRow flag localRow row) := by
  intro m hm
  rw [(h₀.of_kept hm.kept).moveRow_run hk]
  by_cases hlocal : localRow < b.arch.localDepth
  · rw [if_pos hlocal]
    have hmove : Keeps (b.Refilled rows m₀) (Machine.moveDramRow flag localRow row) := by
      refine Triple.bind (Q := fun (d : Device) m => d.arch = b.arch ∧ b.Refilled rows m₀ m)
        (Triple.view fun m hm => ⟨(h₀.of_kept hm.kept).arch, hm⟩) fun d =>
          Triple.assume fun hd => ?_
      refine Keeps.bind Keeps.require fun _ => Keeps.bind Machine.keeps_address fun address => ?_
      rw [if_pos ht, hd]
      refine Triple.bind (Q := fun bytes m => bytes.length = b.arch.rowBytes ∧ b.Refilled rows m₀ m)
        ?_ fun bytes => Triple.assume fun hb => h₀.keeps_refilled_setLocalRow hlocal hrow ?_
      · refine Triple.bind (Q := fun (r : Option (List UInt8)) m =>
          (∀ bytes, r = some bytes → bytes.length = b.arch.rowBytes) ∧ b.Refilled rows m₀ m)
          (Triple.view fun m hm => ⟨fun bytes hr => ?_, hm⟩) fun r => ?_
        · rw [Memory.length_of_readAt? hr, (h₀.of_kept hm.kept).arch]
        · cases r with
          | none => exact Triple.fail fun _ h => h.2
          | some bytes => exact Triple.pure fun _ h => ⟨h.1 bytes rfl, h.2⟩
      · rw [DataType.ofBytes, List.length_map, Bytes.length_words, hb, Architecture.rowBytes,
          Nat.mul_div_cancel _ (scalarBytes_pos _)]
    exact hmove m hm
  · rw [if_neg hlocal]
    exact hm

theorem Hold.refilled_of_fetches (h : b.Hold m) {instr : Instruction} (hi : Fetches rows instr) :
    b.Refilled rows m ((Machine.execute instr).run m).2 := by
  cases instr with
  | dataMove flag scratchpad address size =>
    obtain ⟨ht, ⟨k, hk⟩, hrows⟩ := hi
    have hkeeps : Keeps (b.Refilled rows m)
        (Machine.execute (.dataMove flag scratchpad address size)) :=
      Machine.triple_moveRows (I := fun _ => b.Refilled rows m) (fun j localRow row _ hj hs _ =>
        h.keeps_refilled_moveRow ht hk (hrows j (by omega) localRow hs)) fun _ _ _ _ _ hm => hm
    exact hkeeps.state (.refl rows m)
  | noOp | matMul | loadWeights | configure => exact hi.elim

theorem Hold.refilled_store (hf : b.Fit) (h : b.Hold m) (hl : b.Finds m.device .dram0) :
    b.Refilled rows m ((Machine.execute (.move .localToDram0 localRow row 0)).run m).2 := by
  have hk : MoveFlag.localToDram0.remote = Bank.dram0.space := rfl
  rw [Machine.execute_move, h.moveRow_run hk]
  by_cases hlocal : localRow < b.arch.localDepth
  · rw [if_pos hlocal, h.moveDramRow_run hf hl hk hlocal]
    by_cases hr : row < b.arch.depth Bank.dram0.space
    · rw [if_pos hr, if_neg (by decide)]
      cases hb : b.arch.dataType.toBytes (m.device.localRow localRow) with
      | error e => exact .refl rows m
      | ok bytes =>
        refine ⟨kept_putRow m .dram0 row bytes, rfl, fun name hn => ?_, fun _ _ => rfl, rfl⟩
        rw [h.contents_putRow hf hr (Nat.le_of_eq (h.length_toBytes hlocal hb)), if_neg hn]
    · rw [if_neg hr]
      exact .refl rows m
  · rw [if_neg hlocal]
    exact .refl rows m

def Stored (b : Banks) (k : Bank) (row : UInt64) (m t : Machine) : Prop :=
  t = m ∨ ∃ address bytes, Machine.rowAddress? m.device k.space row = some address ∧
    bytes.length = b.arch.rowBytes ∧ (m.memory.regionAt? address bytes.length).isSome ∧
    t = { m with memory := m.memory.writeAt address bytes }

theorem Hold.execute_store (h : b.Hold m) (hk : flag.remote = k.space) (ht : ¬ flag.isToLocal) :
    b.Stored k row m ((Machine.execute (.move flag localRow row 0)).run m).2 := by
  rw [Machine.execute_move, h.moveRow_run hk]
  by_cases hlocal : localRow < b.arch.localDepth
  · rw [if_pos hlocal]
    have hstore : Triple (· = m) (Machine.moveDramRow flag localRow row)
        (fun _ => b.Stored k row m) (b.Stored k row m) := by
      refine Triple.bind (Q := fun d t => d = m.device ∧ t = m) (Triple.view fun _ ht =>
        ⟨congrArg Machine.device ht, ht⟩) fun d => Triple.assume fun hd => ?_
      subst hd
      refine Triple.bind (Q := fun _ t => t = m) (Triple.require (fun _ _ ht => ht)
        fun _ _ ht => .inl ht) fun _ => ?_
      rw [hk]
      cases ha : Machine.rowAddress? m.device k.space row with
      | none =>
        exact Triple.bind (Q := fun _ _ => False) (Triple.fail fun _ ht => .inl ht)
          fun _ _ hf => hf.elim
      | some address =>
        refine Triple.bind (Q := fun x t => x = address ∧ t = m)
          (Triple.pure fun _ ht => ⟨rfl, ht⟩) fun x => Triple.assume fun hx => ?_
        subst hx
        rw [if_neg ht]
        cases hb : m.device.arch.dataType.toBytes (m.device.localRow localRow) with
        | error e => exact Triple.fail fun _ ht => .inl ht
        | ok bytes =>
          have hn := h.length_toBytes hlocal (h.arch ▸ hb)
          refine Triple.bind (Q := fun mapped t =>
            mapped = (m.memory.regionAt? x bytes.length).isSome ∧ t = m)
            (Triple.view fun t ht => ⟨by rw [ht], ht⟩) fun mapped => Triple.assume fun hm => ?_
          refine Triple.bind (Q := fun _ t => mapped = true ∧ t = m) (Triple.require
            (fun _ hmapped ht => ⟨hmapped, ht⟩) fun _ _ ht => .inl ht) fun _ => Triple.update ?_
          rintro _ ⟨hmapped, rfl⟩
          exact .inr ⟨x, bytes, ha, hn, hm ▸ hmapped, rfl⟩
    exact hstore.state rfl
  · rw [if_neg hlocal]
    exact .inl rfl

end Fetches

end Banks

end TensorUnit.Sim
