import TensorUnit.Proofs.Host.Transfer
import TensorUnit.Proofs.Scalars

namespace TensorUnit.Host

open Remote

namespace Mem

/-- The scalars of the memory are those of its data type, as in every memory of an architecture. -/
def Typed (m : Mem) : Prop :=
  m.units.scalarBytes.toNat = m.dataType.scalarBytes

def Within (m : Mem) (address length : Nat) : Prop :=
  (address + length) * m.dataType.scalarBytes ≤ m.sizeBytes.toNat

variable {m : Mem} {σ : Type} [Service σ]

section Numbers

variable {address : ScalarAddress} (hm : m.Typed)
include hm

theorem Within.exists_offset {count : Nat} (h : m.Within address.val.toNat count) :
    ∃ offset, m.units.bytes address = .ok offset ∧
      offset.val.toNat = address.val.toNat * m.dataType.scalarBytes ∧
      offset.val.toNat + count * m.dataType.scalarBytes ≤ m.sizeBytes.toNat := by
  have hsize := m.sizeBytes.toNat_lt
  rw [Within, Nat.add_mul] at h
  have hlt : address.val.toNat * m.units.scalarBytes.toNat < 2 ^ 64 := by
    rw [hm]
    omega
  obtain ⟨offset, ho, hn⟩ := AddressUnits.exists_bytes hlt
  rw [hm] at hn
  exact ⟨offset, ho, hn, hn ▸ h⟩

theorem within_of_check {offset : ByteOffset} {count : Nat}
    (ho : m.units.bytes address = .ok offset)
    (h : offset.val.toNat + count * m.dataType.scalarBytes ≤ m.sizeBytes.toNat) :
    m.Within address.val.toNat count := by
  rw [Within, Nat.add_mul, ← hm, AddressUnits.bytes_eq_ok_iff.mp ho, hm]
  exact h

end Numbers

section Write

variable {address : ScalarAddress} {values : List Int} (hm : m.Typed)

/-- The values of a write are of the data type, and their place is within the memory. -/
def Takes (m : Mem) (address : ScalarAddress) (values : List Int) : Prop :=
  (∀ v ∈ values, m.dataType.Holds v) ∧ m.Within address.val.toNat values.length

include hm

theorem Takes.write_eq (h : m.Takes address values) :
    ∃ offset : UInt64, offset.toNat = address.val.toNat * m.dataType.scalarBytes ∧
      (m.write address values : Action σ DriverError Unit) =
        writeChunked m.name offset (values.flatMap m.dataType.scalarToBytes) m.chunkSize >>=
          fun _ => pure () := by
  obtain ⟨offset, ho, hn, hfit⟩ := h.2.exists_offset hm
  have hbytes := DataType.toBytes_eq_ok_iff.mpr ⟨h.1, rfl⟩
  have hlength := DataType.length_toBytes hbytes
  have hsize := m.sizeBytes.toNat_lt
  have hcheck : m.check offset (.ofNat (values.flatMap m.dataType.scalarToBytes).length) =
      .ok () := by
    rw [check_eq_ok_iff, UInt64.toNat_ofNat_of_lt' (by change _ < 2 ^ 64; omega), hlength]
    exact hfit
  refine ⟨offset.val, hn, ?_⟩
  rw [write, hbytes, ho]
  change m.writeRaw offset (values.flatMap m.dataType.scalarToBytes) = _
  rw [writeRaw, hcheck]
  rfl

/-- A write that does not pass the checks fails. There are no more values than a host can hold. -/
theorem write_eq_fail (hv : values.length < scalarLimit) (h : ¬ m.Takes address values) :
    ∃ e, (m.write address values : Action σ DriverError Unit) = Action.fail e := by
  rw [write]
  cases hb : m.dataType.toBytes values with
  | error e => exact ⟨.spec e, rfl⟩
  | ok bytes =>
    cases ho : m.units.bytes address with
    | error e => exact ⟨.spec e, rfl⟩
    | ok offset =>
      cases hc : m.check offset (.ofNat bytes.length) with
      | error e =>
        refine ⟨e, ?_⟩
        change m.writeRaw offset bytes = _
        rw [writeRaw, hc]
        rfl
      | ok _ =>
        refine absurd ⟨(DataType.toBytes_eq_ok_iff.mp hb).1, within_of_check hm ho ?_⟩ h
        have hlength := DataType.length_toBytes hb
        have hword : m.dataType.scalarBytes ≤ 4 := by cases m.dataType <;> decide
        have hle := Nat.mul_le_mul_left values.length hword
        have hsmall : bytes.length < 2 ^ 64 := by
          simp only [scalarLimit, byteLimit] at hv
          omega
        have hfit := check_eq_ok_iff.mp hc
        rw [UInt64.toNat_ofNat_of_lt' hsmall, hlength] at hfit
        exact hfit

end Write

section Read

variable {address : ScalarAddress} {length : UInt64} (hm : m.Typed)

def fetch (m : Mem) (offset : UInt64) (total : Nat) : Action σ DriverError (List Int) := do
  requireUp
  Action.require (total < byteLimit) (.spec .tooLarge)
  let size ← Action.view fun s => m.readSize (maxPayload s)
  let pieces ← m.readWindows offset total size 0 [] (windowCount total size)
  return m.dataType.ofBytes pieces.flatten

include hm

theorem Within.read_eq (h : m.Within address.val.toNat length.toNat) :
    ∃ offset : UInt64, offset.toNat = address.val.toNat * m.dataType.scalarBytes ∧
      (m.read address length : Action σ DriverError (List Int)) =
        m.fetch offset (length.toNat * m.dataType.scalarBytes) := by
  obtain ⟨offset, ho, hn, hfit⟩ := h.exists_offset hm
  have hsize := m.sizeBytes.toNat_lt
  have htotal := m.toNat_bytesOf length
  rw [hm, Nat.min_eq_left (by omega)] at htotal
  have hcheck : m.check offset (m.bytesOf length) = .ok () := by
    rw [check_eq_ok_iff, htotal]
    exact hfit
  refine ⟨offset.val, hn, ?_⟩
  rw [← htotal, read, ho]
  change (Action.ofExcept (m.check offset (m.bytesOf length)) >>= fun _ => _) = _
  rw [hcheck]
  rfl

theorem read_eq_fail (hsize : m.sizeBytes.toNat < byteLimit)
    (h : ¬ m.Within address.val.toNat length.toNat) :
    ∃ e, (m.read address length : Action σ DriverError (List Int)) = Action.fail e := by
  rw [read]
  cases ho : m.units.bytes address with
  | error e => exact ⟨.spec e, rfl⟩
  | ok offset =>
    cases hc : m.check offset (m.bytesOf length) with
    | error e =>
      refine ⟨e, ?_⟩
      change (Action.ofExcept (m.check offset (m.bytesOf length)) >>= fun _ => _) = _
      rw [hc]
      rfl
    | ok _ =>
      refine absurd (within_of_check hm ho ?_) h
      have hfit := check_eq_ok_iff.mp hc
      rw [byteLimit] at hsize
      rw [toNat_bytesOf, hm] at hfit
      omega

end Read

end Mem

end TensorUnit.Host
