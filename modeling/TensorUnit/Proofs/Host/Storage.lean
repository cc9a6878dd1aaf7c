import TensorUnit.Proofs.Host.Chunks
import TensorUnit.Proofs.Host.Reading

namespace TensorUnit.Host

open Remote Sim

namespace Mem

variable {m : Mem} {mach : Machine} {limit : Nat} {w : Switch Simulator}
  {address : ScalarAddress} {values : List Int}

theorem Backed.wrote (hb : m.Backed mach) (offset : UInt64) (data : List UInt8) :
    m.Backed (mach.wrote m.name offset data) := by
  have hlength := Memory.length_bytes_write mach.memory m.name m.name offset data
  refine ⟨hb.typed, ?_, hlength ▸ hb.size, hlength ▸ hb.small⟩
  rw [Machine.memory_wrote, Memory.region?_write, if_pos rfl, Option.isSome_map]
  exact hb.allocated

theorem Takes.fits (h : m.Takes address values) (hb : m.Backed mach) :
    (UInt64.ofNat (address.val.toNat * m.dataType.scalarBytes)).toNat =
        address.val.toNat * m.dataType.scalarBytes ∧
      address.val.toNat * m.dataType.scalarBytes +
        (values.flatMap m.dataType.scalarToBytes).length ≤
          (mach.memory.bytes m.name).length := by
  have hfit := h.2
  have hsize := hb.size
  have hlt := m.sizeBytes.toNat_lt
  rw [Within, Nat.add_mul] at hfit
  rw [DataType.length_scalars]
  exact ⟨UInt64.toNat_ofNat_of_lt' (by change _ < 2 ^ 64; omega), by omega⟩

theorem Backed.read_run (hb : m.Backed mach) (hw : Rest limit mach w)
    (hscalar : m.dataType.scalarBytes ≤ limit) {length : UInt64}
    (hfit : m.Within address.val.toNat length.toNat) :
    ((m.read address length).run w).1 = .ok (m.dataType.ofBytes (((mach.memory.bytes m.name).drop
      (address.val.toNat * m.dataType.scalarBytes)).take
        (length.toNat * m.dataType.scalarBytes))) := by
  obtain ⟨_, t, hr, rfl, _⟩ := (hb.triple_read_rest hscalar hfit).succeeds hw
  rw [hr]

/-- An instance that is up and lets every call pass. -/
structure Passes (limit : Nat) (mach : Machine) (w : Switch Simulator) : Prop where
  rest : Rest limit mach w
  spares : w.remote.config.failBufferWriteAt = none
  word : limit < 2 ^ 64

theorem Passes.accepts (hw : Passes limit mach w) (hb : m.Backed mach) {size : Nat}
    (hpos : 0 < size) (hle : size ≤ limit) : Accepts m.name size w := by
  have hmemory : w.remote.memory = mach.memory := congrArg Machine.memory hw.rest.1.machine
  have hsmall := hb.small
  refine ⟨?_, hw.rest.1.up, hw.rest.1.stands, ?_, ?_, hpos, ?_, Nat.lt_of_le_of_lt hle hw.word⟩
  · rw [OnlyFails, hw.rest.2]
    exact fun _ hc => nomatch hc
  · rw [hmemory]
    exact hb.allocated
  · rw [hmemory]
    exact Nat.lt_trans hsmall (by decide)
  · rw [hw.rest.1.payload]
    exact hle

theorem Takes.write_run (h : m.Takes address values) (hw : Passes limit mach w)
    (hb : m.Backed mach) (hpos : 0 < m.chunkSize) (hle : m.chunkSize ≤ limit) :
    ∃ t, (m.write address values).run w = (.ok (), t) ∧
      Passes limit (mach.wrote m.name (.ofNat (address.val.toNat * m.dataType.scalarBytes))
        (values.flatMap m.dataType.scalarToBytes)) t := by
  obtain ⟨offset, ho, hwrite⟩ := h.write_eq (σ := Switch Simulator) hb.typed
  have haccepts := hw.accepts hb hpos hle
  have hmemory : w.remote.memory = mach.memory := congrArg Machine.memory hw.rest.1.machine
  have hall := (all_ok_iff haccepts offset (values.flatMap m.dataType.scalarToBytes)).mpr
    ⟨fun k _ => ⟨by rw [hw.rest.2]; rfl, by rw [hw.spares]; exact nofun⟩, .inr ?_⟩
  · have hend := transferred haccepts offset (values.flatMap m.dataType.scalarToBytes)
    rw [← ho, UInt64.ofNat_toNat, hwrite, Action.bind_run]
    cases hr : (writeChunked m.name offset (values.flatMap m.dataType.scalarToBytes)
      m.chunkSize).run w with
    | mk r t =>
      rw [hr] at hend
      cases hend with
      | stopped before lt fails sent => exact nomatch (hall _ lt).symm.trans fails
      | written all sent =>
        refine ⟨t, rfl, ⟨⟨sent.up.trans hw.rest.1.up, ?_, ?_, ?_⟩, ?_⟩, ?_, hw.word⟩
        · rw [sent.config, hw.rest.1.payload]
        · rw [sent.machine, take_chunkCount hpos, hw.rest.1.machine]
        · rw [sent.config, Machine.device_wrote]
          exact hw.rest.1.still
        · rw [sent.plan, hw.rest.2]
        · rw [sent.config, hw.spares]
  · rw [hmemory, ho]
    exact (h.fits hb).2

theorem Takes.read_back (h : m.Takes address values) (hb : m.Backed mach)
    (hw : Passes limit (mach.wrote m.name (.ofNat (address.val.toNat * m.dataType.scalarBytes))
      (values.flatMap m.dataType.scalarToBytes)) w)
    (hscalar : m.dataType.scalarBytes ≤ limit) (hv : values.length < scalarLimit) :
    ((m.read address (.ofNat values.length)).run w).1 = .ok values := by
  obtain ⟨hstart, hfit⟩ := h.fits hb
  have hlength : (UInt64.ofNat values.length).toNat = values.length :=
    UInt64.toNat_ofNat_of_lt' (Nat.lt_trans hv (by decide))
  rw [(hb.wrote _ _).read_run hw.rest hscalar (by rw [hlength]; exact h.2), hlength,
    Machine.memory_wrote, Memory.bytes_write (hstart.symm ▸ hfit), if_pos rfl, hstart,
    ← DataType.length_scalars, drop_take_splice hfit]
  exact congrArg Except.ok (DataType.ofBytes_toBytes (DataType.toBytes_eq_ok_iff.mpr ⟨h.1, rfl⟩))

theorem Takes.read_other (h : m.Takes address values) (hb : m.Backed mach) (hw : Rest limit mach w)
    {t : Switch Simulator} (ht : Passes limit (mach.wrote m.name
      (.ofNat (address.val.toNat * m.dataType.scalarBytes))
        (values.flatMap m.dataType.scalarToBytes)) t)
    (hscalar : m.dataType.scalarBytes ≤ limit) {other : ScalarAddress} {length : UInt64}
    (hapart : min (other.val.toNat + length.toNat) (address.val.toNat + values.length) ≤
      max other.val.toNat address.val.toNat) :
    ((m.read other length).run t).1 = ((m.read other length).run w).1 := by
  obtain ⟨hstart, hfit⟩ := h.fits hb
  by_cases hin : m.Within other.val.toNat length.toNat
  · have hbytes := Nat.mul_le_mul_right m.dataType.scalarBytes hapart
    rw [← Nat.mul_min_mul_right, ← Nat.mul_max_mul_right, Nat.add_mul, Nat.add_mul,
      ← DataType.length_scalars] at hbytes
    rw [(hb.wrote _ _).read_run ht.rest hscalar hin, hb.read_run hw hscalar hin,
      Machine.memory_wrote, Memory.bytes_write (hstart.symm ▸ hfit), if_pos rfl, hstart,
      drop_take_splice_of_disjoint hfit hbytes]
  · have hsize : m.sizeBytes.toNat < byteLimit := Nat.lt_of_le_of_lt hb.size hb.small
    obtain ⟨e, hread⟩ := read_eq_fail (σ := Switch Simulator) hb.typed hsize hin
    rw [hread]
    rfl

/-- The laws of a memory in a buffer of an instance that lets every call pass. A write succeeds just
when the values are of the data type and their place is within the memory, and otherwise it changes
nothing. Behind a write the values are read back, what is read elsewhere is as before, and so are
the other buffers; how the write is cut into chunks makes no difference. -/
theorem Backed.write_laws (hb : m.Backed mach) (hw : Passes limit mach w)
    (hpos : 0 < m.chunkSize) (hle : m.chunkSize ≤ limit)
    (hscalar : m.dataType.scalarBytes ≤ limit) (address : ScalarAddress) (values : List Int)
    (hv : values.length < scalarLimit) :
    (((m.write address values).run w).1 = .ok () ↔
      (∀ v ∈ values, m.dataType.Holds v) ∧
        (address.val.toNat + values.length) * m.dataType.scalarBytes ≤ m.sizeBytes.toNat) ∧
    (∀ e t, (m.write address values).run w = (.error e, t) → t = w) ∧
    ∀ t, (m.write address values).run w = (.ok (), t) →
      ((m.read address (.ofNat values.length)).run t).1 = .ok values ∧
      (∀ (other : ScalarAddress) (length : UInt64),
        min (other.val.toNat + length.toNat) (address.val.toNat + values.length) ≤
          max other.val.toNat address.val.toNat →
        ((m.read other length).run t).1 = ((m.read other length).run w).1) ∧
      (∀ name, name ≠ m.name →
        t.remote.memory.region? name = w.remote.memory.region? name) ∧
      ∀ size, 0 < size → size ≤ limit →
        (({ m with chunkSize := size }.write address values).run w).2.remote.memory =
          t.remote.memory := by
  have hmemory : w.remote.memory = mach.memory := congrArg Machine.memory hw.rest.1.machine
  by_cases htakes : m.Takes address values
  · obtain ⟨u, hrun, hu⟩ := htakes.write_run hw hb hpos hle
    have hend : u.remote.memory = _ := congrArg Machine.memory hu.rest.1.machine
    refine ⟨⟨fun _ => htakes, fun _ => by rw [hrun]⟩, fun e t he => ?_, fun t ht => ?_⟩
    · cases hrun.symm.trans he
    · cases hrun.symm.trans ht
      refine ⟨htakes.read_back hb hu hscalar hv, fun other length hapart =>
        htakes.read_other hb hw.rest hu hscalar hapart, fun name hn => ?_, fun size hs hl => ?_⟩
      · rw [hend, hmemory]
        exact Memory.beside_write mach.memory m.name _ _ name hn
      · have hsame : Takes { m with chunkSize := size } address values := htakes
        obtain ⟨v, hrun', hv⟩ := hsame.write_run hw
          ⟨hb.typed, hb.allocated, hb.size, hb.small⟩ hs hl
        rw [hrun', hend]
        exact congrArg Machine.memory hv.rest.1.machine
  · obtain ⟨e, hwrite⟩ := write_eq_fail (σ := Switch Simulator) hb.typed hv htakes
    have hrun : (m.write address values).run w = (.error e, w) := by rw [hwrite]; rfl
    rw [hrun]
    refine ⟨⟨fun h => (nomatch h), fun h => absurd h htakes⟩, fun _ _ h => ?_, fun _ h => ?_⟩
    · cases h
      rfl
    · cases h

def threeScalars : Mem :=
  ⟨"a", .fp16bp8, smallArch.units, 6, 1⟩

theorem write_laws_split :
    threeScalars.Backed (twoBuffers 2 ⟨[], none, none⟩).remote.machine ∧
      Passes 2 (twoBuffers 2 ⟨[], none, none⟩).remote.machine (twoBuffers 2 ⟨[], none, none⟩) ∧
      ∃ t, (threeScalars.write ⟨1⟩ [3, -1]).run (twoBuffers 2 ⟨[], none, none⟩) = (.ok (), t) ∧
        ((threeScalars.read ⟨1⟩ 2).run t).1 = .ok [3, -1] ∧
        ((threeScalars.read ⟨0⟩ 1).run t).1 =
          ((threeScalars.read ⟨0⟩ 1).run (twoBuffers 2 ⟨[], none, none⟩)).1 := by
  have hb : threeScalars.Backed (twoBuffers 2 ⟨[], none, none⟩).remote.machine :=
    ⟨rfl, rfl, by decide, by decide⟩
  have hw : Passes 2 (twoBuffers 2 ⟨[], none, none⟩).remote.machine
      (twoBuffers 2 ⟨[], none, none⟩) :=
    ⟨⟨⟨rfl, rfl, rfl, .inr rfl⟩, rfl⟩, rfl, by decide⟩
  obtain ⟨hok, _, hlaws⟩ := hb.write_laws hw (by decide) (by decide) (by decide) ⟨1⟩ [3, -1]
    (by decide)
  have hrun := hok.mpr ⟨by decide, by decide⟩
  obtain ⟨hback, hother, _⟩ := hlaws _ (Prod.ext hrun rfl)
  exact ⟨hb, hw, _, Prod.ext hrun rfl, hback, hother ⟨0⟩ 1 (by decide)⟩

end Mem

end TensorUnit.Host
