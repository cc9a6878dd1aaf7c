import TensorUnit.Field

namespace TensorUnit

namespace Bytes

theorem two_pow_bytes (k : Nat) : (256 : Nat) ^ k = 2 ^ (8 * k) := by
  rw [Nat.pow_mul]

theorem toNat_append_or (a b : List UInt8) :
    toNat (a ++ b) = toNat b <<< (8 * a.length) ||| toNat a := by
  have ha : toNat a < 2 ^ (8 * a.length) := two_pow_bytes a.length ▸ toNat_lt a
  rw [toNat_append, two_pow_bytes, ← Nat.shiftLeft_add_eq_or_of_lt ha, Nat.shiftLeft_eq,
    Nat.mul_comm, Nat.add_comm]

theorem toNat_replicate_zero (size : Nat) : toNat (List.replicate size 0) = 0 := by
  induction size with
  | zero => rfl
  | succ size ih => simp [List.replicate_succ, toNat, ih]

end Bytes

namespace Word

@[simp] theorem length_overlay (bits : Nat) (bytes : List UInt8) :
    (overlay bits bytes).length = bytes.length := by
  induction bytes generalizing bits with
  | nil => rfl
  | cons b bs ih => simp [overlay, ih]

theorem toNat_overlay {bits : Nat} {bytes : List UInt8} (h : bits < 2 ^ (8 * bytes.length)) :
    Bytes.toNat (overlay bits bytes) = Bytes.toNat bytes ||| bits := by
  induction bytes generalizing bits with
  | nil =>
    have hz : bits = 0 := by simpa using h
    simp [overlay, Bytes.toNat, hz]
  | cons b bs ih =>
    have hb : b.toNat < 2 ^ 8 := UInt8.toNat_lt b
    have hlow : bits % 256 < 2 ^ 8 := Nat.mod_lt _ (by decide)
    have hor : b.toNat ||| bits % 256 < 2 ^ 8 := Nat.or_lt_two_pow hb hlow
    have hrest : bits >>> 8 < 2 ^ (8 * bs.length) := by
      rw [List.length_cons, Nat.mul_succ, Nat.pow_add] at h
      rw [Nat.shiftRight_eq_div_pow]
      exact Nat.div_lt_of_lt_mul (Nat.mul_comm .. ▸ h)
    have hsplit : bits = (bits >>> 8) <<< 8 ||| bits % 256 := by
      rw [← Nat.shiftLeft_add_eq_or_of_lt hlow, Nat.shiftLeft_eq, Nat.shiftRight_eq_div_pow]
      omega
    have hcons : ∀ low high, low < 2 ^ 8 → low + 256 * high = high <<< 8 ||| low := by
      intro low high hl
      rw [← Nat.shiftLeft_add_eq_or_of_lt hl, Nat.shiftLeft_eq]
      omega
    have hbyte : (b ||| UInt8.ofNat bits).toNat = b.toNat ||| bits % 256 := by
      rw [UInt8.toNat_or, UInt8.toNat_ofNat']
    calc Bytes.toNat (overlay bits (b :: bs))
        = (b.toNat ||| bits % 256) + 256 * (Bytes.toNat bs ||| bits >>> 8) := by
          rw [overlay, Bytes.toNat, hbyte, ih hrest]
      _ = (Bytes.toNat bs <<< 8 ||| b.toNat) ||| ((bits >>> 8) <<< 8 ||| bits % 256) := by
          rw [hcons _ _ hor, Nat.shiftLeft_or_distrib]
          ac_rfl
      _ = Bytes.toNat (b :: bs) ||| bits := by
          rw [← hsplit, Bytes.toNat, hcons _ _ hb]

theorem stamp_end_le {offset width size : Nat} (h : offset + width ≤ 8 * size) :
    offset / 8 + (offset % 8 + width + 7) / 8 ≤ size := by
  omega

theorem length_stamp {word : List UInt8} {offset width : Nat}
    (h : offset + width ≤ 8 * word.length) (value : Nat) :
    (stamp word offset width value).length = word.length := by
  have hend := stamp_end_le h
  simp only [stamp, List.length_append, List.length_take, List.length_drop, length_overlay]
  omega

theorem toNat_stamp {word : List UInt8} {offset width value : Nat}
    (h : offset + width ≤ 8 * word.length) (hv : value < 2 ^ width) :
    Bytes.toNat (stamp word offset width value) = Bytes.toNat word ||| value <<< offset := by
  have hend := stamp_end_le h
  have hspan : offset % 8 + width ≤ 8 * ((offset % 8 + width + 7) / 8) := by omega
  have hshift : value <<< (offset % 8) < 2 ^ (8 * ((offset % 8 + width + 7) / 8)) := by
    rw [Nat.shiftLeft_eq]
    calc value * 2 ^ (offset % 8) < 2 ^ width * 2 ^ (offset % 8) :=
          Nat.mul_lt_mul_of_pos_right hv (Nat.two_pow_pos _)
      _ = 2 ^ (offset % 8 + width) := by rw [Nat.mul_comm, Nat.pow_add]
      _ ≤ _ := Nat.pow_le_pow_right (by decide) hspan
  rw [stamp]
  generalize (offset % 8 + width + 7) / 8 = span at hend hshift ⊢
  -- The word falls into the bytes below the field, those it touches and those above it.
  obtain ⟨low, mid, high, hword, hlow, hmid⟩ :
      ∃ low mid high : List UInt8, word = low ++ (mid ++ high) ∧ low.length = offset / 8 ∧
        mid.length = span := by
    refine ⟨word.take (offset / 8), (word.drop (offset / 8)).take span,
      (word.drop (offset / 8)).drop span, ?_, ?_, ?_⟩
    · rw [List.take_append_drop, List.take_append_drop]
    · rw [List.length_take]
      omega
    · rw [List.length_take, List.length_drop]
      omega
  have hover : Bytes.toNat (overlay (value <<< (offset % 8)) mid) =
      Bytes.toNat mid ||| value <<< (offset % 8) := toNat_overlay (hmid ▸ hshift)
  have hpos : value <<< (offset % 8) <<< (8 * (offset / 8)) = value <<< offset := by
    rw [← Nat.shiftLeft_add, Nat.mod_add_div]
  have htake : word.take (offset / 8) = low := by
    rw [hword, ← hlow, List.take_left]
  have hdrop : word.drop (offset / 8) = mid ++ high := by
    rw [hword, ← hlow, List.drop_left]
  have hdrop' : word.drop (offset / 8 + span) = high := by
    rw [← List.drop_drop, hdrop, ← hmid, List.drop_left]
  rw [htake, hdrop, hdrop', ← hmid, List.take_left, List.append_assoc, Bytes.toNat_append_or,
    Bytes.toNat_append_or, length_overlay, hover, hword, Bytes.toNat_append_or,
    Bytes.toNat_append_or, hlow, ← hpos]
  simp only [Nat.shiftLeft_or_distrib]
  ac_rfl

theorem toNat_stamp_above {word : List UInt8} {offset width value : Nat}
    (h : offset + width ≤ 8 * word.length) (hv : value < 2 ^ width)
    (hw : Bytes.toNat word < 2 ^ offset) :
    Bytes.toNat (stamp word offset width value) = Bytes.toNat word + 2 ^ offset * value := by
  rw [toNat_stamp h hv, Nat.or_comm, ← Nat.shiftLeft_add_eq_or_of_lt hw, Nat.shiftLeft_eq,
    Nat.mul_comm, Nat.add_comm]

end Word

namespace FieldSet

/-- Fields that fit are all stamped, one above the other, onto a word that is clear from `offset`
on. -/
theorem stampFrom_eq_ok {fields : FieldSet} (hf : ∀ f ∈ fields, f.Fits) {word : List UInt8}
    {offset : Nat} (hw : Bytes.toNat word < 2 ^ offset)
    (hb : offset + fields.totalBits ≤ 8 * word.length) :
    ∃ stamped, stampFrom word offset fields = .ok stamped ∧ stamped.length = word.length ∧
      Bytes.toNat stamped = Bytes.toNat word + 2 ^ offset * fields.place := by
  induction fields generalizing word offset with
  | nil => exact ⟨word, rfl, rfl, by simp [place]⟩
  | cons f fs ih =>
    have hfit : f.Fits := hf f (List.mem_cons_self ..)
    have hlt : f.value < 2 ^ f.width := hfit
    have htotal : totalBits (f :: fs) = f.width + totalBits fs := by simp [totalBits]
    rw [htotal] at hb
    have hstamp : ∃ next, (if f.value = 0 then word else Word.stamp word offset f.width f.value) =
        next ∧ next.length = word.length ∧
          Bytes.toNat next = Bytes.toNat word + 2 ^ offset * f.value := by
      split
      · rename_i hz
        exact ⟨word, rfl, rfl, by simp [hz]⟩
      · have hroom : offset + f.width ≤ 8 * word.length := by omega
        exact ⟨_, rfl, Word.length_stamp hroom _, Word.toNat_stamp_above hroom hlt hw⟩
    obtain ⟨next, hnext, hlength, hvalue⟩ := hstamp
    have hclear : Bytes.toNat next < 2 ^ (offset + f.width) := by
      have hle := Nat.mul_le_mul_left (2 ^ offset) (Nat.succ_le_of_lt hlt)
      rw [Nat.mul_succ, ← Nat.pow_add] at hle
      omega
    obtain ⟨stamped, hok, hsize, hsum⟩ :=
      ih (fun g hg => hf g (List.mem_cons_of_mem _ hg)) hclear (by omega)
    refine ⟨stamped, ?_, hsize.trans hlength, ?_⟩
    · rw [stampFrom, if_pos hfit]
      dsimp only
      rw [hnext, hok]
    · rw [hsum, hvalue, place, Nat.pow_add, Nat.mul_add, Nat.mul_assoc, Nat.add_assoc]

end FieldSet

end TensorUnit
