import TensorUnit.Proofs.Sim.Simulator

namespace TensorUnit.Sim

open Remote

theorem overwriteBytes_append (contents : ByteArray) (offset : Nat) (first rest : List UInt8) :
    overwriteBytes (overwriteBytes contents offset first) (offset + first.length) rest =
      overwriteBytes contents offset (first ++ rest) := by
  induction first generalizing contents offset with
  | nil => rfl
  | cons b bs ih =>
    rw [List.cons_append, overwriteBytes, overwriteBytes]
    have hlength : offset + (b :: bs).length = offset + 1 + bs.length := by
      rw [List.length_cons]
      omega
    split
    · rw [hlength, ih]
    · -- what lies behind the end of the contents is dropped byte by byte
      rw [hlength]
      cases rest with
      | nil => rfl
      | cons c cs =>
        rw [overwriteBytes, dif_neg (by omega)]

namespace Memory

variable {m : Memory} {name : String} {offset : UInt64}

theorem write_nil (m : Memory) (name : String) (offset : UInt64) : m.write name offset [] = m := by
  have hregions : ∀ regions, writeRegion name offset.toNat [] regions = regions := by
    intro regions
    induction regions with
    | nil => rfl
    | cons r rest ih =>
      rw [writeRegion, ih]
      exact ite_self _
  rw [write, hregions]

theorem write_append {position : UInt64} {first rest : List UInt8}
    (h : position.toNat = offset.toNat + first.length) :
    (m.write name offset first).write name position rest = m.write name offset (first ++ rest) := by
  unfold write
  rw [h]
  congr 1
  simp only
  induction m.regions with
  | nil => rfl
  | cons r tail ih =>
    obtain ⟨n, base, contents⟩ := r
    rw [writeRegion, writeRegion]
    split
    · rw [writeRegion, if_pos ‹_›, overwriteBytes_append]
    · rw [writeRegion, if_neg ‹_›, ih]

theorem length_bytes_write (m : Memory) (name other : String) (offset : UInt64)
    (data : List UInt8) :
    ((m.write name offset data).bytes other).length = (m.bytes other).length := by
  unfold bytes
  rw [region?_write]
  cases m.region? other with
  | none => rw [Option.map_none, ite_self]
  | some r =>
    by_cases ho : other = name
    · rw [if_pos ho]
      exact size_overwriteBytes r.contents offset.toNat data
    · rw [if_neg ho]

theorem checkWindow_write (m : Memory) (name other : String) (offset start length : UInt64)
    (data : List UInt8) :
    (m.write name offset data).checkWindow other start length =
      m.checkWindow other start length := by
  unfold checkWindow
  rw [region?_write]
  cases m.region? other with
  | none => rw [Option.map_none, ite_self]
  | some r =>
    by_cases ho : other = name
    · rw [if_pos ho]
      simp only [Option.map_some, size_overwriteBytes]
    · rw [if_neg ho]

end Memory

def Machine.wrote (m : Machine) (name : String) (offset : UInt64) (data : List UInt8) : Machine :=
  { m with memory := m.memory.write name offset data }

@[simp] theorem Machine.device_wrote (m : Machine) (name : String) (offset : UInt64)
    (data : List UInt8) : (m.wrote name offset data).device = m.device := rfl

@[simp] theorem Machine.memory_wrote (m : Machine) (name : String) (offset : UInt64)
    (data : List UInt8) :
    (m.wrote name offset data).memory = m.memory.write name offset data := rfl

/-- The data are in a buffer, from an offset on, and all else is as it was. -/
structure Overwritten (m : Machine) (name : String) (offset : Nat) (data : List UInt8)
    (m' : Machine) : Prop where
  bytes : m'.memory.bytes name = splice (m.memory.bytes name) offset data
  beside : Memory.Beside name m.memory m'.memory
  device : m'.device = m.device

theorem overwritten_wrote {m : Machine} {name : String} {offset : UInt64} {data : List UInt8}
    (h : data = [] ∨ offset.toNat + data.length ≤ (m.memory.bytes name).length) :
    Overwritten m name offset.toNat data (m.wrote name offset data) := by
  refine ⟨?_, Memory.beside_write m.memory name offset data, rfl⟩
  rcases h with rfl | h
  · rw [Machine.memory_wrote, Memory.write_nil, splice_nil]
  · rw [Machine.memory_wrote, Memory.bytes_write h, if_pos rfl]

namespace Simulator

def called (s : Simulator) : Simulator :=
  { s with stats := { s.stats with batches := s.stats.batches + 1 } }

theorem execute_run_up {s : Simulator} (hup : s.up = true) (batch : Batch) :
    (execute batch).run s =
      (applyAll batch >>= fun rs => stepDevice >>= fun _ => pure rs).run s.called := by
  rw [execute, Action.bind_run, Action.view_run]
  simp only
  rw [Action.bind_run, Action.require_run, if_pos hup]
  rfl

theorem execute_run_still {s t : Simulator} {batch : Batch}
    {r : Except RemoteError (List Response)} (hup : s.up = true)
    (happly : (applyAll batch).run s.called = (r, t)) (hstill : t.Still) :
    (execute batch).run s = (r, t) := by
  rw [execute_run_up hup, Action.bind_run, happly]
  cases r with
  | error e => rfl
  | ok rs =>
    simp only
    rw [Action.bind_run, stepDevice_run_still hstill]
    rfl

theorem applyAll_singleton (p : Primitive) : applyAll [p] = apply p := by
  rw [applyAll]
  simp only [applyAll, pure_bind, List.append_nil, bind_pure]

section Write

variable (s : Simulator) (name : String) (offset : UInt64) (data : List UInt8)

/-- Why a write fails, if it does. The first of the reasons counts. -/
def checkWrite : Except RemoteError Unit :=
  if s.config.failBufferWriteAt = some s.stats.bufferWrites then
    .error (.transport (.injectedWrite s.stats.bufferWrites))
  else if s.config.maxPayload < data.length then
    .error (.payloadTooLarge data.length s.config.maxPayload)
  else s.memory.checkWindow name offset (.ofNat data.length)

def refused : Simulator :=
  { s with stats := { s.stats with bufferWrites := s.stats.bufferWrites + 1 } }

def wrote : Simulator :=
  { s.refused with
    machine := s.machine.wrote name offset data
    stats := { s.refused.stats with bytesWritten := s.stats.bytesWritten + data.length } }

theorem write_run :
    (write name offset data).run s =
      match s.checkWrite name offset data with
      | .ok _ => (.ok (), s.wrote name offset data)
      | .error e => (.error e, s.refused) := by
  unfold checkWrite
  rw [write, Action.bind_run, Action.view_run]
  simp only [count, Action.bind_run, Action.update_run, Action.view_run, Action.require_run]
  by_cases hplanned : s.config.failBufferWriteAt = some s.stats.bufferWrites
  · simp only [if_neg (not_not.mpr hplanned), if_pos hplanned]
    rfl
  simp only [if_neg hplanned, if_pos hplanned, checkPayload, Action.bind_run, Action.view_run,
    Action.require_run]
  by_cases hpayload : s.config.maxPayload < data.length
  · simp only [if_neg (Nat.not_le.mpr hpayload), if_pos hpayload]
    rfl
  simp only [if_neg hpayload, if_pos (Nat.not_lt.mp hpayload), checkWindow, Action.bind_run,
    Action.view_run, Action.ofExcept_run]
  cases hwindow : s.memory.checkWindow name offset (.ofNat data.length) with
  | ok _ =>
    simp only [memory] at hwindow ⊢
    rw [hwindow]
    rfl
  | error e =>
    simp only [memory] at hwindow ⊢
    rw [hwindow]
    rfl

variable {s name offset data} (hup : s.up = true) (hstill : s.Still)
include hup hstill

theorem execute_write_ok (h : s.checkWrite name offset data = .ok ()) :
    (execute [.bufferWrite name offset data]).run s =
      (.ok [], s.called.wrote name offset data) := by
  have hcheck : s.called.checkWrite name offset data = .ok () := h
  refine execute_run_still hup ?_ hstill
  rw [applyAll_singleton, apply, Action.bind_run, write_run, hcheck]
  rfl

theorem execute_write_error {e : RemoteError} (h : s.checkWrite name offset data = .error e) :
    (execute [.bufferWrite name offset data]).run s = (.error e, s.called.refused) := by
  have hcheck : s.called.checkWrite name offset data = .error e := h
  refine execute_run_still hup ?_ hstill
  rw [applyAll_singleton, apply, Action.bind_run, write_run, hcheck]

end Write

end Simulator

end TensorUnit.Sim
