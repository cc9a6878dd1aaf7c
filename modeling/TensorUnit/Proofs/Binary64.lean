import Mathlib
import TensorUnit.Double

namespace TensorUnit.Double

open Float.Model Float.Model.UnpackedFloat

/-- A mantissa and exponent in the form that packed numbers have: all 53 bits in use, or the least
exponent. -/
structure Canonical (mantissa : Nat) (exponent : Int) : Prop where
  pos : 0 < mantissa
  lt : mantissa < 2 ^ 53
  least : -1074 ≤ exponent
  full : 2 ^ 52 ≤ mantissa ∨ exponent = -1074

theorem targetExponent_eq (m : Nat) (e : Int) :
    Format.binary64.targetExponent (totalExponent m e) = max (m.log2 + e - 52) (-1074) := by
  simp only [Format.targetExponent, totalExponent, Format.mantissaBits, Format.minExponent]
  omega

theorem log2_le {m : Nat} (h : m < 2 ^ 53) : m.log2 ≤ 52 := by
  by_cases hm : m = 0
  · simp [hm]
  · have := (Nat.log2_lt hm).mpr h
    omega

theorem log2_full {m : Nat} (hlt : m < 2 ^ 53) (hle : 2 ^ 52 ≤ m) : m.log2 = 52 :=
  (Nat.log2_eq_iff (by omega)).mpr ⟨hle, hlt⟩

theorem log2_mul_two_pow {m : Nat} (h : m ≠ 0) (j : Nat) : (m * 2 ^ j).log2 = m.log2 + j := by
  induction j with
  | zero => simp
  | succ j ih =>
    have hne : m * 2 ^ j ≠ 0 := Nat.mul_ne_zero h (Nat.ne_of_gt (Nat.two_pow_pos j))
    rw [Nat.pow_succ', Nat.mul_left_comm, Nat.log2_two_mul hne, ih, Nat.add_assoc]

theorem Canonical.target {m : Nat} {e : Int} (h : Canonical m e) (j : Nat) :
    Format.binary64.targetExponent (totalExponent (m * 2 ^ j) (e - j)) = e := by
  have hlog : (m * 2 ^ j).log2 = m.log2 + j := log2_mul_two_pow (Nat.ne_of_gt h.pos) j
  have hle := log2_le h.lt
  have hleast := h.least
  rw [targetExponent_eq, hlog]
  rcases h.full with hfull | hmin
  · have := log2_full h.lt hfull
    omega
  · omega

theorem shiftRight_mul (m j : Nat) :
    ExtendedMantissa.mk (m * 2 ^ j) false false >>> j = ⟨m, false, false⟩ := by
  induction j generalizing m with
  | zero => simp [HShiftRight.hShiftRight, Nat.repeat]
  | succ j ih =>
    have hstep : ∀ em : ExtendedMantissa, em >>> (j + 1) = (em >>> j).shiftRightOne := fun _ => rfl
    have hm : m * 2 ^ (j + 1) = m * 2 * 2 ^ j := by rw [Nat.pow_succ', Nat.mul_assoc]
    rw [hstep, hm, ih (m * 2)]
    simp [ExtendedMantissa.shiftRightOne]

theorem roundWithAccuracy_exact {m : Nat} {e : Int} (h : Canonical m e) (s : Sign) (j : Nat) :
    roundWithAccuracy Format.binary64 s (m * 2 ^ j) (e - j) .exact = .finite s m e h.pos := by
  have hfirst : shiftToTargetExponent Format.binary64 (m * 2 ^ j) (e - j) .exact =
      (⟨m, false, false⟩, e) := by
    have hamount : (e - (e - j)).toNat = j := by omega
    rw [shiftToTargetExponent]
    simp only [h.target, shiftToExponent, hamount, ExtendedMantissa.ofMantissaAndAccuracy,
      shiftRight_mul, Int.sub_add_cancel]
  have hsecond : shiftToTargetExponent Format.binary64 m e .exact = (⟨m, false, false⟩, e) := by
    have ht := h.target 0
    rw [Nat.pow_zero, Nat.mul_one] at ht
    have ht' : Format.binary64.targetExponent (totalExponent m e) = e := by simpa using ht
    have hs := shiftRight_mul m 0
    rw [Nat.pow_zero, Nat.mul_one] at hs
    simp [shiftToTargetExponent, shiftToExponent, ht', ExtendedMantissa.ofMantissaAndAccuracy, hs]
  have hround : (ExtendedMantissa.mk m false false).roundedMantissa = m := rfl
  have hpos := h.pos
  simp only [roundWithAccuracy, hfirst, hround, hsecond]
  rw [dif_neg (by omega)]

def signOf (negative : Bool) : Sign :=
  if negative then .negative else .positive

def Datum.unpacked : Datum → UnpackedFloat
  | .nan => .notANumber
  | .infinite negative => .infinity (signOf negative)
  | .finite negative significand exponent =>
    if h : 0 < significand then .finite (signOf negative) significand exponent h
    else .zero (signOf negative)

theorem toNat_unpackMantissa (b : BitVec 64) :
    (@unpackMantissa Format.binary64 b).toNat =
      b.toNat % 2 ^ 52 := by
  simp [unpackMantissa]

theorem toNat_unpackExponent (b : BitVec 64) :
    (@unpackExponent Format.binary64 b).toNat = b.toNat / 2 ^ 52 % 2 ^ 11 := by
  simp [unpackExponent, Nat.shiftRight_eq_div_pow]

theorem ofBitVec_unpackSign (b : BitVec Format.binary64.numBits) :
    Sign.ofBitVec (unpackSign b) = signOf (b.toNat.testBit 63) := by
  have h : (unpackSign b).toNat = b.toNat / 2 ^ 63 % 2 := by
    simp [unpackSign, Nat.shiftRight_eq_div_pow]
  have hz : unpackSign b = 0#1 ↔ b.toNat / 2 ^ 63 % 2 = 0 := by
    rw [← BitVec.toNat_inj, h]
    rfl
  rw [Sign.ofBitVec, signOf, Nat.testBit_eq_decide_div_mod_eq]
  rcases Nat.mod_two_eq_zero_or_one (b.toNat / 2 ^ 63) with hb | hb <;> simp [hz, hb]

theorem unpack_eq_datum (x : Double) :
    UnpackedFloat.unpack Format.binary64 x.bits.toBitVec = x.datum.unpacked := by
  have hm : (@unpackMantissa Format.binary64 x.bits.toBitVec).toNat = x.fractionBits :=
    toNat_unpackMantissa _
  have he : (@unpackExponent Format.binary64 x.bits.toBitVec).toNat = x.exponentBits :=
    toNat_unpackExponent _
  have hs : Sign.ofBitVec (@unpackSign Format.binary64 x.bits.toBitVec) = signOf x.signBit :=
    ofBitVec_unpackSign _
  have hones : (@unpackExponent Format.binary64 x.bits.toBitVec) = -1#11 ↔
      x.exponentBits = 2047 := by
    rw [← BitVec.toNat_inj, he]
    rfl
  have hzero : (@unpackExponent Format.binary64 x.bits.toBitVec) = 0#11 ↔ x.exponentBits = 0 := by
    rw [← BitVec.toNat_inj, he]
    rfl
  have hnone : (@unpackMantissa Format.binary64 x.bits.toBitVec) = 0#52 ↔ x.fractionBits = 0 := by
    rw [← BitVec.toNat_inj, hm]
    rfl
  have hfull : (1#1 ++ (@unpackMantissa Format.binary64 x.bits.toBitVec)).toNat =
      2 ^ 52 + x.fractionBits := by
    rw [BitVec.toNat_append, hm, ← Nat.shiftLeft_add_eq_or_of_lt (hm ▸ BitVec.isLt _)]
    rfl
  simp only [UnpackedFloat.unpack, hs, hones, hzero, hnone, datum]
  by_cases h2047 : x.exponentBits = 2047
  · rw [if_pos h2047, if_pos h2047]
    split <;> rfl
  · rw [if_neg h2047, if_neg h2047]
    by_cases h0 : x.exponentBits = 0
    · rw [if_pos h0, if_pos h0, Datum.unpacked]
      by_cases hf : x.fractionBits = 0
      · rw [dif_pos hf, dif_neg (by omega)]
      · rw [dif_neg hf, dif_pos (by omega), finite.injEq, hm, he, h0]
        exact ⟨rfl, rfl, rfl⟩
    · rw [if_neg h0, if_neg h0, Datum.unpacked, dif_pos (by omega), finite.injEq, hfull, he]
      exact ⟨rfl, rfl, rfl⟩

theorem exists_fields (negative : Bool) {exponent fraction : Nat} (he : exponent < 2 ^ 11)
    (hf : fraction < 2 ^ 52) :
    ∃ x : Double, x.signBit = negative ∧ x.exponentBits = exponent ∧ x.fractionBits = fraction := by
  have hnegative := negative.toNat_lt
  let x : Double := ⟨.ofNat (negative.toNat * 2 ^ 63 + exponent * 2 ^ 52 + fraction)⟩
  have hx : x.bits.toNat = negative.toNat * 2 ^ 63 + exponent * 2 ^ 52 + fraction :=
    UInt64.toNat_ofNat_of_lt' (by change _ < 2 ^ 64; omega)
  refine ⟨x, ?_, ?_, ?_⟩
  · have hsign : x.bits.toNat / 2 ^ 63 % 2 = negative.toNat := by omega
    rw [signBit, Nat.testBit_eq_decide_div_mod_eq, hsign]
    cases negative <;> rfl
  · rw [exponentBits, hx]
    omega
  · rw [fractionBits, hx]
    omega

theorem exists_signOf (s : Sign) : ∃ negative, s = signOf negative := by
  cases s with
  | negative => exact ⟨true, rfl⟩
  | positive => exact ⟨false, rfl⟩

/-- Packing what was unpacked changes the bits of a NaN only. -/
theorem unpack_pack_unpack (b : BitVec 64) :
    unpack .binary64 (pack .binary64 (unpack .binary64 b)) = unpack .binary64 b := by
  rw [pack_unpack]
  split
  · rename_i h
    simp only [isNaNBits, decide_eq_true_eq] at h
    rw [unpack_packedNaN, UnpackedFloat.unpack]
    simp only [h, if_true, if_false]
  · rfl

theorem unpack_eq (y : Float.Model) : y.unpack = (ofNumber y).datum.unpacked :=
  unpack_eq_datum (ofNumber y)

theorem unpack_number (x : Double) : x.number.unpack = x.datum.unpacked := by
  rw [← unpack_eq_datum]
  exact unpack_pack_unpack x.bits.toBitVec

theorem exists_datum {m : Nat} {e : Int} (h : Canonical m e) (he : e ≤ 971) (negative : Bool) :
    ∃ x : Double, x.datum = .finite negative m e := by
  have hpos := h.pos
  have hlt := h.lt
  have hleast := h.least
  have hexponent : (if 2 ^ 52 ≤ m then (e + 1075).toNat else 0) < 2 ^ 11 := by
    split <;> omega
  obtain ⟨x, hs, hx, hf⟩ := exists_fields negative hexponent (Nat.mod_lt m (Nat.two_pow_pos 52))
  use x
  rw [datum, hs, hx, hf]
  by_cases hfull : 2 ^ 52 ≤ m
  · rw [if_pos hfull, if_neg (by omega), if_neg (by omega), Datum.finite.injEq]
    exact ⟨rfl, by omega, by omega⟩
  · have hmin := h.full.resolve_left hfull
    rw [if_neg hfull, if_neg (by decide), if_pos rfl, Datum.finite.injEq]
    exact ⟨rfl, by omega, hmin.symm⟩

theorem unpack_finite {m : Nat} {e : Int} (h : Canonical m e) (he : e ≤ 971) (s : Sign) :
    (Float.Model.pack (.finite s m e h.pos)).unpack = .finite s m e h.pos := by
  obtain ⟨negative, rfl⟩ := exists_signOf s
  obtain ⟨x, hx⟩ := exists_datum h he negative
  have hu : unpack .binary64 x.bits.toBitVec = .finite (signOf negative) m e h.pos := by
    rw [unpack_eq_datum, hx, Datum.unpacked, dif_pos h.pos]
  rw [← hu]
  exact unpack_pack_unpack x.bits.toBitVec

theorem unpack_infinite {m : Nat} {e : Int} (h : 0 < m) (he : 972 ≤ e) (s : Sign) :
    (Float.Model.pack (.finite s m e h)).unpack = .infinity s := by
  have hbias : 2 ^ Format.binary64.exponentBits ≤ (e + (Format.binary64.exponentBias : Nat) +
      (Format.binary64.mantissaBitsWithoutImplicit : Nat)).toNat + 1 := by
    simp only [Format.exponentBias]
    omega
  have hpack : Float.Model.pack (.finite s m e h) = Float.Model.pack (.infinity s) := by
    simp only [Float.Model.pack, UnpackedFloat.pack, if_pos hbias]
  rw [hpack]
  cases s <;> rfl

theorem canonical_of_datum {x : Double} {negative : Bool} {m : Nat} {e : Int}
    (h : x.datum = .finite negative m e) (hm : 0 < m) : Canonical m e ∧ e ≤ 971 := by
  have hx : x.exponentBits < 2 ^ 11 := Nat.mod_lt _ (by decide)
  have hf : x.fractionBits < 2 ^ 52 := Nat.mod_lt _ (by decide)
  rw [datum] at h
  split at h
  · split at h <;> cases h
  · split at h <;> cases h
    · exact ⟨⟨hm, by omega, by omega, .inr rfl⟩, by omega⟩
    · exact ⟨⟨hm, by omega, by omega, .inl (by omega)⟩, by omega⟩

/-- The numbers that there are: they are canonical, with an exponent in range. -/
theorem canonical_of_unpack {y : Float.Model} {s : Sign} {m : Nat} {e : Int} {hm : 0 < m}
    (h : y.unpack = .finite s m e hm) : Canonical m e ∧ e ≤ 971 := by
  rw [unpack_eq] at h
  cases hd : (ofNumber y).datum with
  | nan => rw [hd] at h; cases h
  | infinite negative => rw [hd] at h; cases h
  | finite negative m' e' =>
    rw [hd, Datum.unpacked] at h
    split at h
    · rename_i hm'
      cases h
      exact canonical_of_datum hd hm'
    · cases h

theorem exists_canonical {m : Nat} (hpos : 0 < m) (hlt : m < 2 ^ 53) {e : Int} (he : -1074 ≤ e) :
    ∃ i : Nat, i ≤ 52 ∧ Canonical (m * 2 ^ i) (e - i) := by
  have hlog := log2_le hlt
  let target := max (m.log2 + e - 52) (-1074)
  have hi : (e - target).toNat ≤ 52 - m.log2 := by omega
  have hpos' : 0 < m * 2 ^ (e - target).toNat := Nat.mul_pos hpos (Nat.two_pow_pos _)
  have hsum := log2_mul_two_pow (Nat.ne_of_gt hpos) (e - target).toNat
  refine ⟨(e - target).toNat, by omega, hpos', ?_, by omega, ?_⟩
  · exact (Nat.log2_lt (Nat.ne_of_gt hpos')).mp (by omega)
  · by_cases h : target = -1074
    · exact .inr (by omega)
    · have hfull := Nat.log2_self_le (Nat.ne_of_gt hpos')
      rw [hsum, (by omega : m.log2 + (e - target).toNat = 52)] at hfull
      exact .inl hfull

theorem roundWithAccuracy_shifted {m i j : Nat} {e : Int} (h : Canonical (m * 2 ^ i) (e - i))
    (hij : i ≤ j) (s : Sign) :
    roundWithAccuracy Format.binary64 s (m * 2 ^ j) (e - j) .exact =
      .finite s (m * 2 ^ i) (e - i) h.pos := by
  have hm : m * 2 ^ j = m * 2 ^ i * 2 ^ (j - i) := by
    rw [Nat.mul_assoc, ← Nat.pow_add, Nat.add_sub_cancel' hij]
  have he : e - j = e - i - (j - i : Nat) := by omega
  rw [hm, he]
  exact roundWithAccuracy_exact h s _

theorem round_exact {m i : Nat} {e : Int} (h : Canonical (m * 2 ^ i) (e - i)) (s : Sign) :
    UnpackedFloat.round .binary64 s m e = .finite s (m * 2 ^ i) (e - i) h.pos := by
  have hm : m ≠ 0 := by
    rintro rfl
    have hpos := h.pos
    rw [Nat.zero_mul] at hpos
    exact Nat.lt_irrefl 0 hpos
  have htotal : totalExponent (m * 2 ^ i) (e - i) = totalExponent m e := by
    simp only [totalExponent, log2_mul_two_pow hm]
    omega
  have htarget := h.target 0
  simp only [Nat.pow_zero, Nat.mul_one, Int.natCast_zero, Int.sub_zero, htotal] at htarget
  have hi : (e - (e - i)).toNat = i := by omega
  have hround := roundWithAccuracy_exact h s 0
  simp only [Nat.pow_zero, Nat.mul_one, Int.natCast_zero, Int.sub_zero] at hround
  simp only [UnpackedFloat.round, htarget, decreaseExponent, hi, Nat.shiftLeft_eq]
  exact hround

theorem exists_unpack_integer (s : Sign) {m : Nat} (hpos : 0 < m) (hlt : m < 2 ^ 53) :
    ∃ i : Nat, ∃ h : Canonical (m * 2 ^ i) (0 - i), i ≤ 52 ∧ 2 ^ 52 ≤ m * 2 ^ i ∧
      (Float.Model.pack (.round .binary64 s m 0)).unpack =
        .finite s (m * 2 ^ i) (0 - i) h.pos := by
  obtain ⟨i, hi, hc⟩ := exists_canonical hpos hlt (by decide : (-1074 : Int) ≤ 0)
  refine ⟨i, hc, hi, hc.full.resolve_right (by omega), ?_⟩
  rw [round_exact hc, unpack_finite hc (by omega)]

theorem ofInt_eq_round {n : Int} (hn : n ≠ 0) :
    Float.Model.ofInt n = .pack (.round .binary64 (signOf (decide (n < 0))) n.natAbs 0) := by
  rw [Float.Model.ofInt, UnpackedFloat.ofInt, UnpackedFloat.normalize]
  rcases Int.lt_or_gt_of_ne hn with h | h
  · rw [Int.compare_eq_lt.mpr h, decide_eq_true h, (by omega : (-n).toNat = n.natAbs)]
    rfl
  · rw [Int.compare_eq_gt.mpr h, decide_eq_false (by omega), (by omega : n.toNat = n.natAbs)]
    rfl

theorem unpack_two_pow {k : Nat} (hk : k ≤ 52) :
    (Float.Model.ofNat (2 ^ k)).unpack = .finite .positive (2 ^ 52) (k - 52) (by decide) := by
  have hpos : 0 < 2 ^ k := Nat.two_pow_pos k
  have hle : 2 ^ k ≤ 2 ^ 52 := Nat.pow_le_pow_right (by decide) hk
  obtain ⟨i, hc, -, hfull, h⟩ := exists_unpack_integer .positive hpos (by omega)
  have hpow : 2 ^ k * 2 ^ i = 2 ^ (k + i) := (Nat.pow_add ..).symm
  have hlog : k + i = 52 := by
    have := log2_full hc.lt hfull
    rwa [hpow, Nat.log2_two_pow] at this
  have hround : Float.Model.ofNat (2 ^ k) = .pack (.round .binary64 .positive (2 ^ k) 0) := by
    change Float.Model.ofInt ((2 ^ k : Nat) : Int) = _
    rw [ofInt_eq_round (by omega), decide_eq_false (by omega), Int.natAbs_natCast]
    rfl
  rw [hround, h, finite.injEq]
  exact ⟨rfl, by rw [hpow, hlog], by omega⟩

theorem mul_eq (y z : Float.Model) : y * z = .pack (.mul .binary64 y.unpack z.unpack) :=
  rfl

theorem div_eq (y z : Float.Model) : y / z = .pack (.div .binary64 y.unpack z.unpack) :=
  rfl

theorem mul_positive (s : Sign) : s * .positive = s := by
  cases s <;> rfl

theorem div_positive (s : Sign) : s / .positive = s := by
  cases s <;> rfl

/-- A product with a power of two has the same digits: it is not rounded, but may overflow. -/
theorem exists_mul_two_pow {y : Float.Model} {s : Sign} {m : Nat} {e : Int} {hm : 0 < m}
    (h : y.unpack = .finite s m e hm) {k : Nat} (hk : k ≤ 52) :
    ∃ i : Nat, ∃ hc : Canonical (m * 2 ^ i) (e + k - i),
      y * .ofNat (2 ^ k) = .pack (.finite s (m * 2 ^ i) (e + k - i) hc.pos) := by
  have hy := (canonical_of_unpack h).1
  have hleast := hy.least
  obtain ⟨i, hi, hc⟩ := exists_canonical hm hy.lt (by omega : -1074 ≤ e + k)
  refine ⟨i, hc, ?_⟩
  have he : e + (k - 52) = e + k - (52 : Nat) := by omega
  rw [mul_eq, h, unpack_two_pow hk, UnpackedFloat.mul, mul_positive, he,
    roundWithAccuracy_shifted hc hi]

theorem unpack_div_two_pow {y : Float.Model} {s : Sign} {m : Nat} {e : Int} {hm : 0 < m}
    (h : y.unpack = .finite s m e hm) (hfull : 2 ^ 52 ≤ m) {k : Nat} (hk : k ≤ 52)
    (hlo : -1000 ≤ e) :
    (y / .ofNat (2 ^ k)).unpack = .finite s m (e - k) hm := by
  obtain ⟨hy, he⟩ := canonical_of_unpack h
  have hc : Canonical m (e - k) := ⟨hm, hy.lt, by omega, .inl hfull⟩
  have htotal : totalExponent m e - totalExponent (2 ^ 52) (k - 52) = e - k + 52 := by
    simp only [totalExponent, log2_full hy.lt hfull, Nat.log2_two_pow]
    omega
  have htarget : Format.binary64.targetExponent (e - k + 52) = e - k - 1 := by
    simp only [Format.targetExponent, Format.mantissaBits, Format.minExponent]
    omega
  have hmin : min (e - (k - 52)) (e - k - 1) = e - k - (1 : Nat) := by omega
  have hshift : (e - (k - 52) - (e - k - (1 : Nat))).toNat = 53 := by omega
  have hdouble : m * 2 ^ 53 = m * 2 ^ 1 * 2 ^ 52 := by omega
  have hcore : divCore .binary64 m e (2 ^ 52) (k - 52) =
      (m * 2 ^ 1, e - k - (1 : Nat), .exact) := by
    rw [divCore]
    simp only [htotal, htarget, hmin, hshift, Nat.shiftLeft_eq, hdouble, Nat.mul_mod_left,
      Nat.mul_div_cancel _ (Nat.two_pow_pos 52)]
    rfl
  rw [div_eq, h, unpack_two_pow hk, UnpackedFloat.div, div_positive, hcore]
  dsimp only
  rw [roundWithAccuracy_exact hc s 1, unpack_finite hc (by omega)]

end TensorUnit.Double
