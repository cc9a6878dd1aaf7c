import TensorUnit.Proofs.Sim.Queue

namespace TensorUnit.Sim

open TensorUnit.Action (Triple Keeps Alike)
open Remote (DeviceFault)
open Tcu (Instruction MoveFlag Register StridedAddress)

/-- Executes a program in order, outside of any queue. -/
def Machine.executeAll : List Instruction → Machine.Step Unit
  | [] => pure ()
  | instr :: program => do
    Machine.execute instr
    executeAll program

theorem Machine.executeAll_append (before rest : List Instruction) :
    executeAll (before ++ rest) = executeAll before >>= fun _ => executeAll rest := by
  induction before with
  | nil => rfl
  | cons instr before ih => rw [List.cons_append, executeAll, executeAll, ih, bind_assoc]

section Alike

variable {R : Machine → Machine → Prop}

theorem Machine.alike_address {result : Option UInt64} : Alike R (Machine.address result) := by
  cases result with
  | none => exact Alike.fail
  | some address => exact Alike.pure

theorem Machine.alike_moveRows {flag : MoveFlag} {scratchpad address : StridedAddress}
    (h : ∀ localRow row, Alike R (moveRow flag localRow row)) {i count : Nat} :
    Alike R (moveRows flag scratchpad address i count) := by
  induction count generalizing i with
  | zero => exact Alike.pure
  | succ count ih =>
    exact alike_address.bind fun _ => alike_address.bind fun _ => (h _ _).bind fun _ => ih

theorem Machine.alike_executeAll {program : List Instruction}
    (h : ∀ instr ∈ program, Alike R (execute instr)) : Alike R (executeAll program) := by
  induction program with
  | nil => exact Alike.pure
  | cons instr program ih =>
    exact (h instr List.mem_cons_self).bind fun _ => ih fun i hi => h i (List.mem_cons_of_mem _ hi)

end Alike

namespace Banks

variable (b : Banks)

/-- Two machines that are the same to a program. -/
structure Agree (m t : Machine) : Prop where
  registers : m.device.registers = t.device.registers
  scratchpad : m.device.scratchpad = t.device.scratchpad
  accumulator : m.device.accumulator = t.device.accumulator
  contents : ∀ k, b.contents m k = b.contents t k

structure Twin (m t : Machine) : Prop where
  left : b.Hold m
  right : b.Hold t
  located : b.Located m.device
  agree : b.Agree m t

variable {b} {m t : Machine}

theorem Agree.refl (m : Machine) : b.Agree m m :=
  ⟨rfl, rfl, rfl, fun _ => rfl⟩

theorem Agree.symm (h : b.Agree m t) : b.Agree t m :=
  ⟨h.registers.symm, h.scratchpad.symm, h.accumulator.symm, fun k => (h.contents k).symm⟩

theorem Agree.trans {u : Machine} (h : b.Agree m t) (h' : b.Agree t u) : b.Agree m u :=
  ⟨h.registers.trans h'.registers, h.scratchpad.trans h'.scratchpad,
    h.accumulator.trans h'.accumulator, fun k => (h.contents k).trans (h'.contents k)⟩

theorem Agree.located (h : b.Agree m t) (hl : b.Located m.device) : b.Located t.device := by
  intro k
  rw [Device.register, ← h.registers]
  exact hl k

theorem Twin.localRow (h : b.Twin m t) (row : UInt64) :
    m.device.localRow row = t.device.localRow row := by
  rw [Device.localRow, Device.localRow, Device.width, Device.width, h.left.arch, h.right.arch,
    h.agree.scratchpad]

theorem Twin.accumulatorRow (h : b.Twin m t) (row : UInt64) :
    m.device.accumulatorRow row = t.device.accumulatorRow row := by
  rw [Device.accumulatorRow, Device.accumulatorRow, Device.width, Device.width, h.left.arch,
    h.right.arch, h.agree.accumulator]

theorem Twin.row (h : b.Twin m t) (k : Bank) (row : UInt64) : b.row m k row = b.row t k row := by
  rw [Banks.row, Banks.row, h.agree.contents]

theorem alike_setLocalRow {row : UInt64} {values : List Int} :
    Alike b.Twin (Machine.setLocalRow row values) := by
  rintro ⟨⟨arch, registers, scratchpad, accumulator, queue, executed⟩, memory⟩
    ⟨⟨arch', registers', scratchpad', accumulator', queue', executed'⟩, memory'⟩ h
  obtain ⟨left, right, located, ⟨hr, hs, ha, hc⟩⟩ := h
  obtain rfl : arch = b.arch := left.arch
  obtain rfl : arch' = b.arch := right.arch
  obtain rfl : scratchpad = scratchpad' := hs
  refine ⟨rfl, ?_, ?_, located, hr, rfl, ha, hc⟩
  · exact left.of_kept (Machine.keeps_setLocalRow _ (.refl _))
  · exact right.of_kept (Machine.keeps_setLocalRow _ (.refl _))

theorem alike_setAccumulatorRow {row : UInt64} {values : List Int} :
    Alike b.Twin (Machine.setAccumulatorRow row values) := by
  rintro ⟨⟨arch, registers, scratchpad, accumulator, queue, executed⟩, memory⟩
    ⟨⟨arch', registers', scratchpad', accumulator', queue', executed'⟩, memory'⟩ h
  obtain ⟨left, right, located, ⟨hr, hs, ha, hc⟩⟩ := h
  obtain rfl : arch = b.arch := left.arch
  obtain rfl : arch' = b.arch := right.arch
  obtain rfl : accumulator = accumulator' := ha
  refine ⟨rfl, ?_, ?_, located, hr, hs, rfl, hc⟩
  · exact left.of_kept (Machine.keeps_setAccumulatorRow _ (.refl _))
  · exact right.of_kept (Machine.keeps_setAccumulatorRow _ (.refl _))

theorem Twin.put (h : b.Twin m t) {k : Bank} {start : Nat} {bytes : List UInt8}
    (hfit : start + bytes.length ≤ b.size) :
    b.Twin (b.put m k start bytes) (b.put t k start bytes) := by
  refine ⟨h.left.of_kept (kept_put ..), h.right.of_kept (kept_put ..), h.located,
    h.agree.registers, h.agree.scratchpad, h.agree.accumulator, fun j => ?_⟩
  have hj : m.memory.bytes (b.name j) = t.memory.bytes (b.name j) := h.agree.contents j
  rw [contents, contents, h.left.contents_put hfit, h.right.contents_put hfit, h.agree.contents k,
    hj]

section Moves

variable (hf : b.Fit)
include hf

theorem Twin.putRow (h : b.Twin m t) {k : Bank} {row : UInt64}
    (hr : row < b.arch.depth k.space) {bytes : List UInt8} (hn : bytes.length = b.arch.rowBytes) :
    b.Twin (b.putRow m k row bytes) (b.putRow t k row bytes) :=
  h.put (hn ▸ hf.row_le hr)

theorem alike_moveDramRow {flag : MoveFlag} {k : Bank} (hk : flag.remote = k.space)
    {localRow row : UInt64} (hlocal : localRow < b.arch.localDepth) :
    Alike b.Twin (Machine.moveDramRow flag localRow row) := by
  intro m t h
  rw [h.left.moveDramRow_run hf (h.located k) hk hlocal,
    h.right.moveDramRow_run hf (h.agree.located h.located k) hk hlocal]
  by_cases hr : row < b.arch.depth k.space
  · rw [if_pos hr, if_pos hr]
    by_cases ht : flag.isToLocal
    · rw [if_pos ht, if_pos ht, h.row]
      exact alike_setLocalRow m t h
    · rw [if_neg ht, if_neg ht, h.localRow]
      cases hb : b.arch.dataType.toBytes (t.device.localRow localRow) with
      | error e => exact ⟨rfl, h⟩
      | ok bytes => exact ⟨rfl, h.putRow hf hr (h.right.length_toBytes hlocal hb)⟩
  · rw [if_neg hr, if_neg hr]
    exact ⟨rfl, h⟩

omit hf in
theorem alike_moveAccumulatorRow {flag : MoveFlag} {localRow row : UInt64} :
    Alike b.Twin (Machine.moveAccumulatorRow flag localRow row) := by
  intro m t h
  rw [Machine.moveAccumulatorRow, Action.bind_run, Action.bind_run, Action.view_run,
    Action.view_run]
  simp only
  rw [Action.bind_run, Action.bind_run, Action.require_run, Action.require_run, h.left.arch,
    h.right.arch, h.localRow, h.accumulatorRow]
  by_cases hr : row < b.arch.accumulatorDepth
  · rw [if_pos hr]
    simp only
    split
    · exact alike_setLocalRow m t h
    · exact alike_setAccumulatorRow m t h
    · exact alike_setAccumulatorRow m t h
  · rw [if_neg hr]
    exact ⟨rfl, h⟩

theorem alike_moveRow {flag : MoveFlag} {localRow row : UInt64} :
    Alike b.Twin (Machine.moveRow flag localRow row) := by
  intro m t h
  rw [Machine.moveRow, Action.bind_run, Action.bind_run, Action.view_run, Action.view_run]
  simp only
  rw [Action.bind_run, Action.bind_run, Action.require_run, Action.require_run, h.left.arch,
    h.right.arch]
  by_cases hlocal : localRow < b.arch.localDepth
  · rw [if_pos hlocal]
    simp only
    cases hs : flag.remote with
    | dram0 => exact alike_moveDramRow hf (k := .dram0) hs hlocal m t h
    | dram1 => exact alike_moveDramRow hf (k := .dram1) hs hlocal m t h
    | accumulator | scratchpad => exact alike_moveAccumulatorRow m t h
  · rw [if_neg hlocal]
    exact ⟨rfl, h⟩

theorem alike_execute {instr : Instruction} (hi : ¬ ConfiguresBank instr) :
    Alike b.Twin (Machine.execute instr) := by
  cases instr with
  | noOp => exact Alike.pure
  | configure r value =>
    intro m t h
    obtain ⟨left, right, located, ⟨hr, hs, ha, hc⟩⟩ := h
    refine ⟨rfl, ⟨left.arch, left.cells, left.apart, left.extents⟩,
      ⟨right.arch, right.cells, right.apart, right.extents⟩, fun k => ?_, ?_, hs, ha, hc⟩
    · have hne : Machine.offsetRegister k.space ≠ r := fun he => hi ⟨k, he.symm⟩
      change (m.device.setRegister r value).register _ = _
      rw [Device.register_setRegister, if_neg hne]
      exact located k
    · change (r, value) :: _ = (r, value) :: _
      rw [hr]
  | dataMove flag scratchpad address size =>
    exact Machine.alike_moveRows fun _ _ => alike_moveRow hf
  | matMul | loadWeights => exact Alike.fail

theorem alike_executeAll {program : List Instruction} (hp : ∀ i ∈ program, ¬ ConfiguresBank i) :
    Alike b.Twin (Machine.executeAll program) :=
  Machine.alike_executeAll fun instr hi => alike_execute hf (hp instr hi)

end Moves

/-- A program has been executed from `n` on as far as it is not still queued. -/
def Progress (b : Banks) (program : List Instruction) (n m : Machine) : Prop :=
  ∃ before t, program = before ++ m.device.queue ∧
    (Machine.executeAll before).run n = (.ok (), t) ∧ b.Twin m t

section Progress

variable {program : List Instruction} {n : Machine}

theorem Progress.ready (h : b.Progress program n m)
    (hp : ∀ instr ∈ program, ¬ ConfiguresBank instr) : b.Ready m := by
  obtain ⟨before, t, rfl, _, htwin⟩ := h
  exact ⟨htwin.left, aimed_of_located htwin.located fun instr hi =>
    hp instr (List.mem_append_right _ hi)⟩

theorem Progress.counted (hf : b.Fit) (h : b.Progress program n m)
    (hp : ∀ instr ∈ program, ¬ ConfiguresBank instr) {instr : Instruction}
    {queue : List Instruction} (hq : m.device.queue = instr :: queue) {u : Machine}
    (hr : (Machine.execute instr).run (m.withQueue queue) = (.ok (), u)) :
    b.Progress program n (Machine.countExecuted u) := by
  obtain ⟨before, t, he, hrun, htwin⟩ := h
  rw [hq] at he
  have hk := Machine.kept_execute instr (m.withQueue queue)
  have hi : ¬ ConfiguresBank instr :=
    hp instr (by rw [he]; exact List.mem_append_right _ (List.mem_cons_self ..))
  obtain ⟨hleft, hright, hlocated, hagree⟩ := htwin
  have hwith : b.Twin (m.withQueue queue) t :=
    ⟨⟨hleft.arch, hleft.cells, hleft.apart, hleft.extents⟩, hright, hlocated,
      hagree.registers, hagree.scratchpad, hagree.accumulator, hagree.contents⟩
  obtain ⟨hsame, htwin⟩ := alike_execute hf hi _ t hwith
  rw [hr] at hk hsame htwin
  cases ht : (Machine.execute instr).run t with
  | mk r t' =>
    rw [ht] at hsame htwin
    obtain rfl : Except.ok () = r := hsame
    refine ⟨before ++ [instr], t', ?_, ?_, ?_⟩
    · change program = before ++ [instr] ++ u.device.queue
      rw [he, hk.queue, List.append_assoc]
      rfl
    · rw [Machine.executeAll_append, Action.bind_run, hrun]
      change (Machine.execute instr >>= fun _ => Machine.executeAll []).run t = _
      rw [Action.bind_run, ht]
      rfl
    · obtain ⟨hleft, hright, hlocated, hagree⟩ := htwin
      exact ⟨⟨hleft.arch, hleft.cells, hleft.apart, hleft.extents⟩, hright, hlocated,
        hagree.registers, hagree.scratchpad, hagree.accumulator, hagree.contents⟩

theorem Progress.beside (h : b.Progress program n m) {name : String} (hn : ∀ k, b.name k ≠ name)
    {memory : Memory} (ha : memory.Apart) (hb : Memory.Beside name m.memory memory) :
    b.Progress program n { m with memory } := by
  obtain ⟨before, t, he, hrun, ⟨hleft, hright, hlocated, hagree⟩⟩ := h
  refine ⟨before, t, he, hrun, hleft.beside hn ha hb, hright, hlocated, hagree.registers,
    hagree.scratchpad, hagree.accumulator, fun k => ?_⟩
  exact (hb.bytes (hn k)).trans (hagree.contents k)

/-- A queue is worked off in order. -/
theorem steady_progress (hf : b.Fit) (hp : ∀ instr ∈ program, ¬ ConfiguresBank instr) :
    b.Steady (b.Progress program n) b.Hold where
  hold _ h := (h.ready hp).hold
  stop _ h := (h.ready hp).hold
  step := by
    intro J E done fault
    apply Machine.triple_executeNext
    · exact fun _ h _ => h
    · rintro m instr queue t ⟨h, hj⟩ hq hr
      obtain ⟨_, hqueue, hexecuted, hnext⟩ := (h.ready hp).counted hf hq hr
      exact ⟨h.counted hf hp hq hr, done m instr _ h hj hqueue hexecuted hnext⟩
    · rintro m instr queue f t ⟨h, hj⟩ hq hr
      obtain ⟨hready, hn⟩ := (h.ready hp).failed hf hq hr
      refine ⟨hready.hold, fault m instr _ h hj ?_ rfl ⟨hn.extents, hn.spares⟩⟩
      rw [hq]
      exact List.mem_cons_self ..

theorem Progress.all (h : b.Progress program n m) (hq : m.device.queue = []) :
    ∃ t, (Machine.executeAll program).run n = (.ok (), t) ∧ b.Agree m t := by
  obtain ⟨before, t, he, hrun, htwin⟩ := h
  rw [hq, List.append_nil] at he
  exact ⟨t, he ▸ hrun, htwin.agree⟩

end Progress

end Banks

end TensorUnit.Sim
