import Mathlib.Order.Interval.Set.Basic
import TensorUnit.AddressUnits
import TensorUnit.Proofs.Action

namespace TensorUnit.AddressUnits

/-- Two conversions, to a unit `factor` times as fine and back. Each has a result exactly where
there is one and tells otherwise what is wrong with the address, and they are inverse to each
other. -/
structure Converts {α β : Type} (coarseNumber : α → UInt64) (fineNumber : β → UInt64)
    (factor : UInt64) (unit : AddressUnit) (fine : α → Except SpecError β)
    (coarse : β → Except SpecError α) : Prop where
  fine_iff : ∀ a, (∃ b, fine a = .ok b) ↔ (coarseNumber a).toNat * factor.toNat < 2 ^ 64
  exact : ∀ a b, fine a = .ok b → (fineNumber b).toNat = (coarseNumber a).toNat * factor.toNat
  overflow : ∀ a e, fine a = .error e → e = .addressOverflow (coarseNumber a) unit
  coarse_iff : ∀ b, (∃ a, coarse b = .ok a) ↔ factor.toNat ∣ (fineNumber b).toNat
  misaligned : ∀ b e, coarse b = .error e → e = .misaligned (fineNumber b) factor unit
  inverse : ∀ a b, coarse b = .ok a ↔ fine a = .ok b

section Numbers

variable {unit : AddressUnit} {value factor result : UInt64}

theorem scale_eq_ok_iff :
    scale unit value factor = .ok result ↔ value.toNat * factor.toNat = result.toNat := by
  unfold scale
  rw [← Exact.mul?_eq_some_iff]
  cases Exact.mul? value factor with
  | some scaled => rw [Except.ok.injEq, Option.some.injEq]
  | none => exact iff_of_false nofun nofun

theorem coarsen_eq_ok_iff (hf : 0 < factor) :
    coarsen unit value factor = .ok result ↔ result.toNat * factor.toNat = value.toNat := by
  have hpos : 0 < factor.toNat := UInt64.lt_iff_toNat_lt.mp hf
  have hzero : value % factor = 0 ↔ value.toNat % factor.toNat = 0 := by
    rw [← UInt64.toNat_inj, UInt64.toNat_mod, UInt64.toNat_zero]
  rw [coarsen, if_neg (UInt64.ne_of_lt hf).symm]
  split
  · rw [Except.ok.injEq, ← UInt64.toNat_inj, UInt64.toNat_div]
    have hdvd : factor.toNat ∣ value.toNat := Nat.dvd_of_mod_eq_zero (hzero.mp ‹_›)
    rw [Nat.div_eq_iff_eq_mul_left hpos hdvd, eq_comm]
  · refine iff_of_false nofun fun h => ‹¬ value % factor = 0› (hzero.mpr ?_)
    rw [← h, Nat.mul_mod_left]

theorem converts_numbers (hf : 0 < factor) :
    Converts id id factor unit (scale unit · factor) (coarsen unit · factor) where
  fine_iff value := by
    refine ⟨fun ⟨scaled, h⟩ => ?_, fun h => ?_⟩
    · rw [id, scale_eq_ok_iff.mp h]
      exact scaled.toNat_lt
    · exact ⟨.ofNat _, scale_eq_ok_iff.mpr (UInt64.toNat_ofNat_of_lt' h).symm⟩
  exact value scaled h := (scale_eq_ok_iff.mp h).symm
  overflow value e h := by
    unfold scale at h
    split at h
    · cases h
    · exact (Except.error.inj h).symm
  coarse_iff value := by
    refine ⟨fun ⟨result, h⟩ => ⟨result.toNat, ?_⟩, fun ⟨n, h⟩ => ?_⟩
    · rw [id, ← (coarsen_eq_ok_iff hf).mp h, Nat.mul_comm]
    · -- the quotient of a 64-bit number is one
      have hn : n < 2 ^ 64 := Nat.lt_of_le_of_lt
        (h ▸ Nat.le_mul_of_pos_left n (UInt64.lt_iff_toNat_lt.mp hf)) value.toNat_lt
      refine ⟨.ofNat n, (coarsen_eq_ok_iff hf).mpr ?_⟩
      rw [UInt64.toNat_ofNat_of_lt' hn, Nat.mul_comm]
      exact h.symm
  misaligned value e h := by
    rw [coarsen, if_neg (UInt64.ne_of_lt hf).symm] at h
    split at h
    · cases h
    · exact (Except.error.inj h).symm
  inverse _ _ := (coarsen_eq_ok_iff hf).trans scale_eq_ok_iff.symm

end Numbers

section Addresses

variable {α β : Type} {coarseNumber : α → UInt64} {fineNumber : β → UInt64} {wrap : UInt64 → α}
  {wrap' : UInt64 → β} {factor : UInt64} {unit : AddressUnit}
  {fine coarse : UInt64 → Except SpecError UInt64}

theorem map_eq_ok_iff (hn : ∀ v, coarseNumber (wrap v) = v) (hw : ∀ a, wrap (coarseNumber a) = a)
    {r : Except SpecError UInt64} {a : α} : wrap <$> r = .ok a ↔ r = .ok (coarseNumber a) := by
  cases r with
  | error e => exact iff_of_false nofun nofun
  | ok v =>
    refine ⟨fun h => ?_, fun h => ?_⟩
    · rw [← Except.ok.inj h, hn]
    · rw [Except.ok.inj h]
      exact congrArg Except.ok (hw a)

theorem map_eq_error {r : Except SpecError UInt64} {e : SpecError} (h : wrap <$> r = .error e) :
    r = .error e := by
  cases r with
  | error e' => exact congrArg Except.error (Except.error.inj h)
  | ok v => cases h

theorem Converts.addresses (h : Converts id id factor unit fine coarse)
    (hn : ∀ v, coarseNumber (wrap v) = v) (hw : ∀ a, wrap (coarseNumber a) = a)
    (hn' : ∀ v, fineNumber (wrap' v) = v) (hw' : ∀ b, wrap' (fineNumber b) = b) :
    Converts coarseNumber fineNumber factor unit (fun a => wrap' <$> fine (coarseNumber a))
      (fun b => wrap <$> coarse (fineNumber b)) where
  fine_iff a := by
    refine Iff.trans ?_ (h.fine_iff _)
    refine ⟨fun ⟨b, hb⟩ => ⟨_, (map_eq_ok_iff hn' hw').mp hb⟩, fun ⟨v, hv⟩ => ⟨wrap' v, ?_⟩⟩
    rw [map_eq_ok_iff hn' hw', hn']
    exact hv
  exact a b hb := h.exact _ _ ((map_eq_ok_iff hn' hw').mp hb)
  overflow a e he := h.overflow _ e (map_eq_error he)
  coarse_iff b := by
    refine Iff.trans ?_ (h.coarse_iff _)
    refine ⟨fun ⟨a, ha⟩ => ⟨_, (map_eq_ok_iff hn hw).mp ha⟩, fun ⟨v, hv⟩ => ⟨wrap v, ?_⟩⟩
    rw [map_eq_ok_iff hn hw, hn]
    exact hv
  misaligned b e he := h.misaligned _ e (map_eq_error he)
  inverse a b := by rw [map_eq_ok_iff hn hw, map_eq_ok_iff hn' hw', h.inverse]

end Addresses

section Units

variable {u : AddressUnits} {row row' : RowAddress} {address : ScalarAddress}
  {offset offset' : ByteOffset}

theorem converts_scalar (h : 0 < u.arraySize) :
    Converts RowAddress.val ScalarAddress.val u.arraySize .scalars u.scalar u.row :=
  (converts_numbers h).addresses (fun _ => rfl) (fun _ => rfl) (fun _ => rfl) fun _ => rfl

theorem converts_bytes (h : 0 < u.scalarBytes) :
    Converts ScalarAddress.val ByteOffset.val u.scalarBytes .bytes u.bytes u.scalarOfBytes :=
  (converts_numbers h).addresses (fun _ => rfl) (fun _ => rfl) (fun _ => rfl) fun _ => rfl

theorem scalar_eq_ok_iff :
    u.scalar row = .ok address ↔ row.val.toNat * u.arraySize.toNat = address.val.toNat :=
  (map_eq_ok_iff (fun _ => rfl) fun _ => rfl).trans scale_eq_ok_iff

theorem bytes_eq_ok_iff :
    u.bytes address = .ok offset ↔ address.val.toNat * u.scalarBytes.toNat = offset.val.toNat :=
  (map_eq_ok_iff (fun _ => rfl) fun _ => rfl).trans scale_eq_ok_iff

theorem exists_scalar (h : row.val.toNat * u.arraySize.toNat < 2 ^ 64) :
    ∃ address, u.scalar row = .ok address ∧
      address.val.toNat = row.val.toNat * u.arraySize.toNat :=
  have hscaled := UInt64.toNat_ofNat_of_lt' h
  ⟨⟨.ofNat _⟩, scalar_eq_ok_iff.mpr hscaled.symm, hscaled⟩

theorem exists_bytes (h : address.val.toNat * u.scalarBytes.toNat < 2 ^ 64) :
    ∃ offset, u.bytes address = .ok offset ∧
      offset.val.toNat = address.val.toNat * u.scalarBytes.toNat :=
  have hscaled := UInt64.toNat_ofNat_of_lt' h
  ⟨⟨.ofNat _⟩, bytes_eq_ok_iff.mpr hscaled.symm, hscaled⟩

theorem rowBytes_eq_ok (h : u.rowBytes row = .ok offset) :
    row.val.toNat * u.arraySize.toNat * u.scalarBytes.toNat = offset.val.toNat := by
  obtain ⟨address, ha, hb⟩ := exists_of_bind_ok h
  rw [scalar_eq_ok_iff.mp ha, bytes_eq_ok_iff.mp hb]

theorem exists_rowBytes (hb : 0 < u.scalarBytes)
    (h : row.val.toNat * u.arraySize.toNat * u.scalarBytes.toNat < 2 ^ 64) :
    ∃ offset, u.rowBytes row = .ok offset := by
  have hle := Nat.le_mul_of_pos_right (row.val.toNat * u.arraySize.toNat)
    (UInt64.lt_iff_toNat_lt.mp hb)
  obtain ⟨address, ha, hn⟩ := exists_scalar (Nat.lt_of_le_of_lt hle h)
  rw [← hn] at h
  obtain ⟨offset, ho, -⟩ := exists_bytes h
  exact exists_bind_ok ha ⟨offset, ho⟩

def rowSpan (u : AddressUnits) (offset : ByteOffset) : Set Nat :=
  Set.Ico offset.val.toNat (offset.val.toNat + u.arraySize.toNat * u.scalarBytes.toNat)

theorem rowSpan_le (h : u.rowBytes row = .ok offset)
    (h' : u.rowBytes row' = .ok offset') (hlt : row.val < row'.val) :
    offset.val.toNat + u.arraySize.toNat * u.scalarBytes.toNat ≤ offset'.val.toNat := by
  have hnext : row.val.toNat + 1 ≤ row'.val.toNat := UInt64.lt_iff_toNat_lt.mp hlt
  rw [← rowBytes_eq_ok h, ← rowBytes_eq_ok h', Nat.mul_assoc, Nat.mul_assoc, ← Nat.succ_mul]
  exact Nat.mul_le_mul_right _ hnext

theorem rowSpan_apart (h : u.rowBytes row = .ok offset) (h' : u.rowBytes row' = .ok offset')
    (hne : row ≠ row') : ∀ i ∈ u.rowSpan offset, i ∉ u.rowSpan offset' := by
  have hval : row.val.toNat ≠ row'.val.toNat := fun he =>
    hne (congrArg RowAddress.mk (UInt64.toNat_inj.mp he))
  intro i hi hi'
  rw [rowSpan, Set.mem_Ico] at hi hi'
  rcases Nat.lt_or_gt_of_ne hval with hlt | hlt
  · have hle := rowSpan_le h h' (UInt64.lt_iff_toNat_lt.mpr hlt)
    omega
  · have hle := rowSpan_le h' h (UInt64.lt_iff_toNat_lt.mpr hlt)
    omega

end Units

/-- The conversions of units that are not empty, over all 64-bit addresses. Each has a result
exactly where the exact one is there, and this is the result; they are inverse to each other; the
first bytes of rows stand in the order of the rows, and no two rows share a byte. -/
theorem units_exact (u : AddressUnits) (ha : 0 < u.arraySize) (hb : 0 < u.scalarBytes) :
    Converts RowAddress.val ScalarAddress.val u.arraySize .scalars u.scalar u.row ∧
    Converts ScalarAddress.val ByteOffset.val u.scalarBytes .bytes u.bytes u.scalarOfBytes ∧
    (∀ row, (∃ offset, u.rowBytes row = .ok offset) ↔
      row.val.toNat * u.arraySize.toNat * u.scalarBytes.toNat < 2 ^ 64) ∧
    (∀ row offset, u.rowBytes row = .ok offset →
      offset.val.toNat = row.val.toNat * u.arraySize.toNat * u.scalarBytes.toNat) ∧
    ∀ row row' offset offset', u.rowBytes row = .ok offset → u.rowBytes row' = .ok offset' →
      (row.val < row'.val → offset.val < offset'.val) ∧
      (row ≠ row' → ∀ i ∈ u.rowSpan offset, i ∉ u.rowSpan offset') := by
  refine ⟨converts_scalar ha, converts_bytes hb, fun row => ⟨fun ⟨offset, h⟩ => ?_, fun h => ?_⟩,
    fun row offset h => (rowBytes_eq_ok h).symm, fun row row' offset offset' h h' =>
      ⟨fun hlt => ?_, rowSpan_apart h h'⟩⟩
  · rw [rowBytes_eq_ok h]
    exact offset.val.toNat_lt
  · exact exists_rowBytes hb h
  · have hbytes : 0 < u.arraySize.toNat * u.scalarBytes.toNat :=
      Nat.mul_pos (UInt64.lt_iff_toNat_lt.mp ha) (UInt64.lt_iff_toNat_lt.mp hb)
    have hle := rowSpan_le h h' hlt
    exact UInt64.lt_iff_toNat_lt.mpr (by omega)

/-- Rows of eight scalars of two bytes: the last one that has a byte offset, and the one behind
it. -/
theorem units_exact_pynqZ1 :
    let u : AddressUnits := ⟨8, 2⟩
    0 < u.arraySize ∧ 0 < u.scalarBytes ∧ u.row ⟨24⟩ = .ok ⟨3⟩ ∧ u.scalarOfBytes ⟨48⟩ = .ok ⟨24⟩ ∧
      (∃ offset, u.rowBytes ⟨0xfffffffffffffff⟩ = .ok offset) ∧
      (¬ ∃ offset, u.rowBytes ⟨0x1000000000000000⟩ = .ok offset) ∧
      ∀ i ∈ u.rowSpan ⟨48⟩, i ∉ u.rowSpan ⟨64⟩ := by
  intro u
  obtain ⟨hscalar, hbytes, hrow, -, hrows⟩ := units_exact u (by decide) (by decide)
  refine ⟨by decide, by decide, (hscalar.inverse ⟨3⟩ ⟨24⟩).mpr rfl,
    (hbytes.inverse ⟨24⟩ ⟨48⟩).mpr rfl, (hrow _).mpr (by decide), fun h => ?_,
    (hrows ⟨3⟩ ⟨4⟩ ⟨48⟩ ⟨64⟩ rfl rfl).2 (by decide)⟩
  exact absurd ((hrow _).mp h) (by decide)

end TensorUnit.AddressUnits
