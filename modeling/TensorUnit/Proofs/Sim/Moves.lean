import TensorUnit.Proofs.Scalars
import TensorUnit.Proofs.Sim.Queue

namespace TensorUnit.Sim

open Tcu (Instruction MoveFlag)

theorem window_overwrite_of_disjoint {α : Type} {cells : Array α} {index other length : Nat}
    {values : List α} (hfit : index + values.length ≤ cells.size)
    (h : other + length ≤ index ∨ index + values.length ≤ other) :
    window (overwrite cells index values) other length = window cells other length := by
  rw [window_eq, window_eq, toList_overwrite hfit]
  exact drop_take_splice_of_disjoint hfit (by omega)

theorem Machine.execute_move (flag : MoveFlag) (localRow row : UInt64) :
    execute (.move flag localRow row 0) = moveRow flag localRow row := by
  change moveRows flag (.unit localRow) (.unit row) 0 1 = _
  rw [moveRows, strided?_unit_zero, strided?_unit_zero]
  change (moveRow flag localRow row >>= fun _ => pure ()) = _
  exact bind_pure_unit

namespace Banks

variable {b : Banks} {m t : Machine} {k : Bank} {localRow row : UInt64} {bytes : List UInt8}

theorem Hold.length_row (hf : b.Fit) (h : b.Hold m) (hr : row < b.arch.depth k.space) :
    (b.row m k row).length = b.arch.rowBytes := by
  have hle := hf.row_le hr
  have hl := h.length_contents k
  rw [Banks.row, List.length_take, List.length_drop]
  omega

theorem Hold.row_putRow (hf : b.Fit) (h : b.Hold m) (hr : row < b.arch.depth k.space)
    (hn : bytes.length = b.arch.rowBytes) : b.row (b.putRow m k row bytes) k row = bytes := by
  have hle := hf.row_le hr
  have hl := h.length_contents k
  have hfit : row.toNat * b.arch.rowBytes + bytes.length ≤ (b.contents m k).length := by
    rw [hn, hl]
    exact hle
  have hd := drop_take_splice hfit
  rw [hn] at hd
  rw [Banks.row, contents, h.contents_putRow hf hr (Nat.le_of_eq hn), if_pos rfl]
  exact hd

theorem Hold.moveRow_run (h : b.Hold m) {flag : MoveFlag} (hk : flag.remote = k.space) :
    (Machine.moveRow flag localRow row).run m =
      if localRow < b.arch.localDepth then (Machine.moveDramRow flag localRow row).run m
      else (.error (.localRow localRow), m) := by
  rw [Machine.moveRow_run, h.arch, hk]
  cases k <;> rfl

theorem Hold.length_ofBytes_row (hf : b.Fit) (h : b.Hold m) (hr : row < b.arch.depth k.space) :
    (b.arch.dataType.ofBytes (b.row m k row)).length = b.arch.arraySize.toNat := by
  rw [DataType.length_ofBytes, h.length_row hf hr, Architecture.rowBytes,
    Nat.mul_div_cancel _ (scalarBytes_pos _)]

theorem Hold.localRow_setLocalRow (h : b.Hold m) (hlocal : localRow < b.arch.localDepth)
    {values : List Int} (hn : values.length = b.arch.arraySize.toNat) (other : UInt64) :
    ((Machine.setLocalRow localRow values).run m).2.device.localRow other =
      if other = localRow then values else m.device.localRow other := by
  have hwidth : m.device.width = b.arch.arraySize.toNat := by rw [Device.width, h.arch]
  have hfit : localRow.toNat * b.arch.arraySize.toNat + values.length ≤
      m.device.scratchpad.size := by
    rw [h.cells, Device.cells, hn, ← Nat.succ_mul]
    exact Nat.mul_le_mul_right _ (Nat.succ_le_of_lt (UInt64.lt_iff_toNat_lt.mp hlocal))
  rw [Machine.setLocalRow_run, h.arch]
  change window (overwrite m.device.scratchpad _ values) (other.toNat * m.device.width)
    m.device.width = _
  rw [hwidth]
  by_cases ho : other = localRow
  · have hw := window_overwrite hfit
    rw [hn] at hw
    rw [if_pos ho, ho]
    exact hw
  · rw [if_neg ho, window_overwrite_of_disjoint hfit, Device.localRow, hwidth]
    have hne : other.toNat ≠ localRow.toNat := fun he => ho (UInt64.toNat_inj.mp he)
    rcases Nat.lt_or_gt_of_ne hne with hlt | hlt
    · left
      rw [← Nat.succ_mul]
      exact Nat.mul_le_mul_right _ hlt
    · right
      rw [hn, ← Nat.succ_mul]
      exact Nat.mul_le_mul_right _ hlt

section Execute

variable (hf : b.Fit) (h : b.Hold m) (hl : b.Finds m.device k)
include hf h hl

theorem Hold.execute_move_ok {flag : MoveFlag} (hk : flag.remote = k.space)
    (hr : (Machine.execute (.move flag localRow row 0)).run m = (.ok (), t)) :
    localRow < b.arch.localDepth ∧ row < b.arch.depth k.space ∧
      (Machine.moveDramRow flag localRow row).run m = (.ok (), t) := by
  rw [Machine.execute_move, h.moveRow_run hk] at hr
  by_cases hlocal : localRow < b.arch.localDepth
  · rw [if_pos hlocal] at hr
    refine ⟨hlocal, ?_, hr⟩
    rw [h.moveDramRow_run hf hl hk hlocal] at hr
    by_contra hn
    rw [if_neg hn] at hr
    cases hr
  · rw [if_neg hlocal] at hr
    cases hr

theorem Hold.loaded {flag : MoveFlag} (hk : flag.remote = k.space) (ht : flag.isToLocal)
    (hr : (Machine.execute (.move flag localRow row 0)).run m = (.ok (), t)) :
    t.device.localRow localRow = b.arch.dataType.ofBytes (b.row m k row) := by
  obtain ⟨hlocal, hrow, hmove⟩ := h.execute_move_ok hf hl hk hr
  rw [h.moveDramRow_run hf hl hk hlocal, if_pos hrow, if_pos ht] at hmove
  have hset := h.localRow_setLocalRow hlocal (h.length_ofBytes_row hf hrow) localRow
  rwa [hmove, if_pos rfl] at hset

theorem Hold.stored {flag : MoveFlag} (hk : flag.remote = k.space) (ht : ¬ flag.isToLocal)
    (hr : (Machine.execute (.move flag localRow row 0)).run m = (.ok (), t)) :
    b.arch.dataType.toBytes (m.device.localRow localRow) = .ok (b.row t k row) := by
  obtain ⟨hlocal, hrow, hmove⟩ := h.execute_move_ok hf hl hk hr
  rw [h.moveDramRow_run hf hl hk hlocal, if_pos hrow, if_neg ht] at hmove
  cases hb : b.arch.dataType.toBytes (m.device.localRow localRow) with
  | error e =>
    rw [hb] at hmove
    cases hmove
  | ok bytes =>
    rw [hb] at hmove
    cases hmove
    rw [h.row_putRow hf hrow (h.length_toBytes hlocal hb)]

end Execute

theorem row_congr (h : ∀ i, i / b.arch.rowBytes = row.toNat →
    (b.contents t k)[i]? = (b.contents m k)[i]?) : b.row t k row = b.row m k row := by
  apply List.ext_getElem?
  intro i
  rw [Banks.row, Banks.row, List.getElem?_take, List.getElem?_take]
  split
  · rename_i hi
    rw [List.getElem?_drop, List.getElem?_drop]
    exact h _ (Nat.div_eq_of_lt_le (Nat.le_add_right ..) (by rw [Nat.succ_mul]; omega))
  · rfl

theorem Spares.row_eq {rows : UInt64 → Prop} (hs : b.Spares rows m.memory t.memory)
    (hn : ¬ rows row) : b.row t .dram0 row = b.row m .dram0 row :=
  row_congr fun i hi => hs.dram0 i fun r hr he => by
    have hrow : row = r := UInt64.toNat_inj.mp (hi.symm.trans he.symm)
    exact hn (hrow ▸ hr)

theorem row_write {name : String} {offset : UInt64}
    (hfit : offset.toNat + bytes.length ≤ (m.memory.bytes name).length)
    (hout : name = b.name .dram0 → ∀ i, offset.toNat ≤ i → i < offset.toNat + bytes.length →
      i / b.arch.rowBytes ≠ row.toNat) :
    b.row { m with memory := m.memory.write name offset bytes } .dram0 row =
      b.row m .dram0 row := by
  refine row_congr fun i hi => ?_
  change ((m.memory.write name offset bytes).bytes _)[i]? = _
  rw [Memory.bytes_write hfit]
  by_cases he : b.name .dram0 = name
  · rw [if_pos he, getElem?_splice hfit, if_neg fun hr => hout he.symm i hr.1 hr.2 hi, ← he]
    rfl
  · rw [if_neg he]
    rfl

theorem row_beside {name : String} (hn : ∀ k, b.name k ≠ name) {memory : Memory}
    (hb : Memory.Beside name m.memory memory) :
    b.row { m with memory } k row = b.row m k row :=
  row_congr fun i _ => congrArg (·[i]?) (hb.bytes (hn k))

def Shows (b : Banks) (start : Nat) (data : List UInt8) (n : Nat) (m : Machine) : Prop :=
  ∀ i < n, i < data.length → (b.contents m .dram0)[start + i]? = data[i]?

section Shows

variable {start n : Nat} {data : List UInt8} {name : String} {offset : UInt64}

theorem shows_zero : b.Shows start data 0 m :=
  fun _ hi => absurd hi (Nat.not_lt_zero _)

theorem Shows.congr (h : b.Shows start data n m) (hc : ∀ i, start ≤ i → i < start + data.length →
    (b.contents t .dram0)[i]? = (b.contents m .dram0)[i]?) : b.Shows start data n t :=
  fun i hn hi => (hc _ (by omega) (by omega)).trans (h i hn hi)

theorem Shows.of_next {instr : Instruction} (h : b.Shows start data n m) (hn : b.Next instr m t)
    (hi : ∀ row, WritesDram0 instr row → ∀ i, start ≤ i → i < start + data.length →
      i / b.arch.rowBytes ≠ row.toNat) : b.Shows start data n t :=
  h.congr fun i hlo hhi => hn.spares.dram0 i fun row hr he => hi row hr i hlo hhi he.symm

theorem Shows.write (h : b.Shows start data n m)
    (hfit : offset.toNat + bytes.length ≤ (m.memory.bytes name).length)
    (hout : name = b.name .dram0 → ∀ i, start ≤ i → i < start + data.length →
      ¬ (offset.toNat ≤ i ∧ i < offset.toNat + bytes.length)) :
    b.Shows start data n { m with memory := m.memory.write name offset bytes } := by
  refine h.congr fun i hlo hhi => ?_
  change ((m.memory.write name offset bytes).bytes _)[i]? = _
  rw [Memory.bytes_write hfit]
  by_cases he : b.name .dram0 = name
  · rw [if_pos he, getElem?_splice hfit, if_neg (hout he.symm i hlo hhi), ← he]
    rfl
  · rw [if_neg he]
    rfl

theorem Shows.fill (h : b.Shows start data n m)
    (hfit : offset.toNat + bytes.length ≤ (m.memory.bytes (b.name .dram0)).length)
    (ho : offset.toNat = start + n) (hb : bytes = (data.drop n).take bytes.length) :
    b.Shows start data (n + bytes.length)
      { m with memory := m.memory.write (b.name .dram0) offset bytes } := by
  intro i hi hlen
  change ((m.memory.write _ offset bytes).bytes _)[start + i]? = _
  rw [Memory.bytes_write hfit, if_pos rfl, getElem?_splice hfit]
  by_cases hn : i < n
  · rw [if_neg (by omega)]
    exact h i hn hlen
  · rw [if_pos (by omega), hb, List.getElem?_take_of_lt (by omega), List.getElem?_drop]
    congr 1
    omega

theorem Shows.beside (h : b.Shows start data n m) (hn : ∀ k, b.name k ≠ name) {memory : Memory}
    (hb : Memory.Beside name m.memory memory) : b.Shows start data n { m with memory } :=
  h.congr fun i _ _ => congrArg (·[i]?) (hb.bytes (hn .dram0))

theorem Shows.window (h : b.Shows start data data.length m) :
    ((b.contents m .dram0).drop start).take data.length = data := by
  apply List.ext_getElem?
  intro i
  by_cases hi : i < data.length
  · rw [List.getElem?_take_of_lt hi, List.getElem?_drop]
    exact h i hi hi
  · rw [List.getElem?_take, if_neg hi, List.getElem?_eq_none (Nat.le_of_not_lt hi)]

end Shows

theorem Aimed.located_of_head {d : Device} (h : b.Aimed d) {instr : Instruction}
    {queue : List Instruction} (hq : d.queue = instr :: queue)
    (hi : ∀ r v, instr ≠ .configure r v) : b.Located d := by
  obtain ⟨confs, rest, he, hs, _⟩ := h
  rw [hq] at he
  cases confs with
  | nil => exact hs
  | cons c confs => exact absurd (List.cons.inj he).1 (hi _ _)

end Banks

end TensorUnit.Sim
