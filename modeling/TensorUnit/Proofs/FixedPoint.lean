import Mathlib
import TensorUnit.DataType.Fixed
import TensorUnit.Proofs.Binary64

namespace TensorUnit

/-- The integer next to a rational, on the side of zero. -/
def towardZero (q : ℚ) : ℤ :=
  if q < 0 then ⌈q⌉ else ⌊q⌋

theorem towardZero_intCast (n : ℤ) : towardZero n = n := by
  simp [towardZero]

theorem towardZero_neg (q : ℚ) : towardZero (-q) = -towardZero q := by
  rw [towardZero, towardZero]
  rcases lt_trichotomy q 0 with h | h | h
  · rw [if_neg (by linarith), if_pos h, Int.floor_neg]
  · simp [h]
  · rw [if_pos (by linarith), if_neg (by linarith), Int.ceil_neg]

theorem towardZero_natCast_div (m d : ℕ) : towardZero (m / d : ℚ) = (m / d : ℕ) := by
  have h : (0 : ℚ) ≤ m / d := by positivity
  rw [towardZero, if_neg (by linarith), Rat.floor_natCast_div_natCast]
  rfl

theorem abs_towardZero_le (q : ℚ) : |(towardZero q : ℚ)| ≤ |q| := by
  rw [towardZero]
  split
  · rename_i h
    have hn : (⌈q⌉ : ℚ) ≤ 0 := by exact_mod_cast Int.ceil_le.mpr (by simpa using h.le)
    rw [abs_of_nonpos hn, abs_of_neg h]
    exact neg_le_neg (Int.le_ceil q)
  · rename_i h
    have hn : (0 : ℚ) ≤ ⌊q⌋ := by exact_mod_cast Int.floor_nonneg.mpr (not_lt.mp h)
    rw [abs_of_nonneg hn, abs_of_nonneg (not_lt.mp h)]
    exact Int.floor_le q

theorem abs_sub_towardZero_lt (q : ℚ) : |q - towardZero q| < 1 := by
  rw [towardZero, abs_lt]
  split
  · have := Int.ceil_lt_add_one q
    have := Int.le_ceil q
    constructor <;> linarith
  · have := Int.floor_le q
    have := Int.lt_floor_add_one q
    constructor <;> linarith

theorem towardZero_mem {lo hi : ℤ} {q : ℚ} (hlo : lo ≤ 0) (hhi : 0 ≤ hi) (hl : (lo : ℚ) - 1 < q)
    (hh : q < hi + 1) : lo ≤ towardZero q ∧ towardZero q ≤ hi := by
  rw [towardZero]
  split
  · rename_i h
    have hn : ⌈q⌉ ≤ 0 := Int.ceil_le.mpr (by simpa using h.le)
    have hc : lo - 1 < ⌈q⌉ := Int.lt_ceil.mpr (by exact_mod_cast hl)
    omega
  · rename_i h
    have hn : 0 ≤ ⌊q⌋ := Int.floor_nonneg.mpr (not_lt.mp h)
    have hc : ⌊q⌋ < hi + 1 := Int.floor_lt.mpr (by exact_mod_cast hh)
    omega

namespace Double

open Float.Model Float.Model.UnpackedFloat

/-- The rational that a datum denotes. -/
def Datum.value? : Datum → Option ℚ
  | .finite negative significand exponent =>
    some ((if negative then -1 else 1) * significand * 2 ^ exponent)
  | _ => none

def value? (x : Double) : Option ℚ :=
  x.datum.value?

def scaled (s : Sign) (m : Nat) (e : Int) : ℚ :=
  (s.apply m : ℤ) * 2 ^ e

def valueOf : UnpackedFloat → Option ℚ
  | .zero _ => some 0
  | .finite s m e _ => some (scaled s m e)
  | _ => none

theorem valueOf_unpacked (d : Datum) : valueOf d.unpacked = d.value? := by
  cases d with
  | nan => rfl
  | infinite negative => rfl
  | finite negative m e =>
    rw [Datum.unpacked, Datum.value?]
    split
    · cases negative <;> simp [valueOf, scaled, signOf, Sign.apply]
    · have hm : m = 0 := by omega
      simp [valueOf, hm]

theorem valueOf_number (x : Double) : valueOf x.number.unpack = x.value? := by
  rw [unpack_number, valueOf_unpacked, value?]

theorem value?_ofNumber (y : Float.Model) : (ofNumber y).value? = valueOf y.unpack := by
  rw [unpack_eq, valueOf_unpacked, value?]

theorem scaled_mul_two_pow (s : Sign) (m i : Nat) (e : Int) :
    scaled s (m * 2 ^ i) (e - i) = scaled s m e := by
  have hsplit : (2 : ℚ) ^ e = 2 ^ (e - i) * 2 ^ i := by
    rw [← zpow_natCast, ← zpow_add₀ (by norm_num), Int.sub_add_cancel]
  have happly : s.apply (m * 2 ^ i : Nat) = s.apply m * 2 ^ i := by
    cases s <;> simp [Sign.apply]
  rw [scaled, scaled, hsplit, happly]
  push_cast
  ring

theorem scaled_add (s : Sign) (m k : Nat) (e : Int) :
    scaled s m (e + k) = scaled s m e * 2 ^ k := by
  rw [scaled, scaled, zpow_add₀ (by norm_num), zpow_natCast]
  ring

theorem scaled_sub (s : Sign) (m k : Nat) (e : Int) :
    scaled s m (e - k) = scaled s m e / 2 ^ k := by
  rw [scaled, scaled, zpow_sub₀ (by norm_num), zpow_natCast]
  ring

theorem zero_or_finite {u : UnpackedFloat} {v : ℚ} (h : valueOf u = some v) :
    (v = 0 ∧ ∃ s, u = .zero s) ∨ ∃ s m e hm, u = .finite s m e hm ∧ v = scaled s m e := by
  cases u with
  | infinity s => cases h
  | notANumber => cases h
  | zero s => cases h; exact .inl ⟨rfl, s, rfl⟩
  | finite s m e hm => cases h; exact .inr ⟨s, m, e, hm, rfl, rfl⟩

theorem scaled_zero_exponent (s : Sign) (m : Nat) : scaled s m 0 = s.apply m := by
  simp [scaled]

theorem valueOf_round (s : Sign) {m : Nat} (h : m < 2 ^ 53) :
    valueOf (Float.Model.pack (.round .binary64 s m 0)).unpack = some (s.apply m : ℚ) := by
  by_cases hm : m = 0
  · subst hm
    cases s <;> rfl
  · obtain ⟨i, hc, -, -, hu⟩ := exists_unpack_integer s (Nat.pos_of_ne_zero hm) h
    rw [hu, valueOf, scaled_mul_two_pow, scaled_zero_exponent]

theorem apply_signOf (n : Int) : (signOf (decide (n < 0))).apply n.natAbs = n := by
  by_cases h : n < 0
  · have : signOf (decide (n < 0)) = .negative := by simp [h, signOf]
    rw [this, Sign.apply]
    omega
  · have : signOf (decide (n < 0)) = .positive := by simp [h, signOf]
    rw [this, Sign.apply]
    omega

theorem valueOf_ofInt {n : Int} (h : n.natAbs < 2 ^ 53) :
    valueOf (Float.Model.ofInt n).unpack = some (n : ℚ) := by
  by_cases hn : n = 0
  · subst hn
    rfl
  · rw [ofInt_eq_round hn, valueOf_round _ h, apply_signOf]

/-- An integer over a power of two has a value that is not rounded. -/
theorem valueOf_ofInt_div {n : Int} (h : n.natAbs < 2 ^ 53) {k : Nat} (hk : k ≤ 52) :
    valueOf (Float.Model.ofInt n / .ofNat (2 ^ k)).unpack = some ((n : ℚ) / 2 ^ k) := by
  by_cases hn : n = 0
  · subst hn
    have hzero : (Float.Model.ofInt 0).unpack = .zero .positive := rfl
    rw [div_eq, hzero, unpack_two_pow hk, UnpackedFloat.div, Int.cast_zero, zero_div]
    rfl
  · obtain ⟨i, hc, hi, hfull, hu⟩ :=
      exists_unpack_integer (signOf (decide (n < 0))) (Int.natAbs_pos.mpr hn) h
    rw [← ofInt_eq_round hn] at hu
    rw [unpack_div_two_pow hu hfull hk (by omega), valueOf, scaled_sub, scaled_mul_two_pow,
      scaled_zero_exponent, apply_signOf]

theorem towardZero_scaled (s : Sign) (m : Nat) (e : Int) :
    towardZero (scaled s m e) = s.apply (m * 2 ^ e.toNat / 2 ^ (-e).toNat : Nat) := by
  have hsplit : (2 : ℚ) ^ e = 2 ^ e.toNat / 2 ^ (-e).toNat := by
    rw [← zpow_natCast, ← zpow_natCast, ← zpow_sub₀ (by norm_num)]
    congr 1
    omega
  have hquot : (m : ℚ) * 2 ^ e = (m * 2 ^ e.toNat : ℕ) / (2 ^ (-e).toNat : ℕ) := by
    rw [hsplit]
    push_cast
    ring
  cases s with
  | positive =>
    rw [scaled, Sign.apply, Sign.apply, Int.cast_natCast, hquot, towardZero_natCast_div]
  | negative =>
    rw [scaled, Sign.apply, Sign.apply, Int.cast_neg, Int.cast_natCast, neg_mul, hquot,
      towardZero_neg, towardZero_natCast_div]

theorem valueOf_truncate {y : Float.Model} {v : ℚ} (h : valueOf y.unpack = some v) :
    valueOf (truncate y).unpack = some (towardZero v : ℚ) := by
  rcases zero_or_finite h with ⟨rfl, s, hu⟩ | ⟨s, m, e, hm, hu, rfl⟩
  · rw [truncate, hu]
    dsimp only
    rw [h]
    simp [towardZero]
  · obtain ⟨hc, -⟩ := canonical_of_unpack hu
    rw [truncate, hu]
    dsimp only
    rw [towardZero_scaled]
    split
    · have hle : m / 2 ^ e.natAbs ≤ m := Nat.div_le_self ..
      have hlt := hc.lt
      rw [valueOf_round s (by omega), (by omega : e.toNat = 0), (by omega : (-e).toNat = e.natAbs),
        Nat.pow_zero, Nat.mul_one]
    · rw [hu, valueOf, (by omega : (-e).toNat = 0), Nat.pow_zero, Nat.div_one,
        ← scaled_zero_exponent, ← scaled_mul_two_pow s m e.toNat e, (by omega : e - e.toNat = 0)]

theorem unpack_truncate_infinity {y : Float.Model} {s : Sign} (h : y.unpack = .infinity s) :
    (truncate y).unpack = .infinity s := by
  rw [truncate, h]
  exact h

theorem mantissa_shiftRight (em : ExtendedMantissa) (k : Nat) :
    (em >>> k).mantissa = em.mantissa / 2 ^ k := by
  induction k with
  | zero => simp [HShiftRight.hShiftRight, Nat.repeat]
  | succ k ih =>
    change ((em >>> k).shiftRightOne).mantissa = _
    rw [ExtendedMantissa.shiftRightOne, ih, Nat.div_div_eq_div_mul, Nat.pow_succ]

theorem toInt_eq_towardZero {u : UnpackedFloat} {v : ℚ} (h : valueOf u = some v) (lo hi : Int) :
    u.toInt lo hi = towardZero v := by
  rcases zero_or_finite h with ⟨rfl, s, rfl⟩ | ⟨s, m, e, hm, rfl, rfl⟩
  · simp [UnpackedFloat.toInt, towardZero]
  · rw [UnpackedFloat.toInt, towardZero_scaled, roundToInt]
    simp only [decreaseExponent, shiftToExponent, mantissa_shiftRight, Nat.shiftLeft_eq,
      ExtendedMantissa.ofMantissaAndAccuracy, Int.sub_zero]
    rw [(by omega : (0 - (e - e.toNat)).toNat = (-e).toNat)]

theorem toInt32_eq {y : Float.Model} {n : ℤ} (h : valueOf y.unpack = some (n : ℚ))
    (hlo : -2 ^ 31 ≤ n) (hhi : n < 2 ^ 31) : y.toInt32.toInt = n := by
  change (Int32.ofIntClamp (y.unpack.toInt _ _)).toInt = n
  rw [toInt_eq_towardZero h, towardZero_intCast]
  apply Int32.toInt_ofIntClamp
  · exact hlo
  · exact Int.le_of_lt_add_one hhi

theorem size_lt {m m' : Nat} {e e' : Int} (hc : Canonical m e) (hc' : Canonical m' e')
    (h : e < e') : (m : ℚ) * 2 ^ e < m' * 2 ^ e' := by
  have hfull : 2 ^ 52 ≤ m' := by
    have := hc.least
    exact hc'.full.resolve_right (by omega)
  have hm : (m : ℚ) < 2 ^ 53 := by exact_mod_cast hc.lt
  have hm' : (2 : ℚ) ^ 52 ≤ m' := by exact_mod_cast hfull
  calc (m : ℚ) * 2 ^ e < 2 ^ 53 * 2 ^ e := by gcongr
    _ = 2 ^ 52 * 2 ^ (e + 1) := by rw [zpow_add_one₀ (by norm_num)]; ring
    _ ≤ m' * 2 ^ e' := by
      gcongr
      · norm_num
      · exact h

theorem compare_eq_lt_iff {m m' : Nat} {e e' : Int} (hc : Canonical m e) (hc' : Canonical m' e') :
    (compare e e').then (compare m m') = .lt ↔ (m : ℚ) * 2 ^ e < m' * 2 ^ e' := by
  rw [Ordering.then_eq_lt, Int.compare_eq_lt, Int.compare_eq_eq, Nat.compare_eq_lt]
  rcases lt_trichotomy e e' with h | rfl | h
  · exact iff_of_true (.inl h) (size_lt hc hc' h)
  · rw [mul_lt_mul_iff_left₀ (by positivity), Nat.cast_lt]
    simp
  · exact iff_of_false (by omega) (size_lt hc' hc h).le.not_gt

theorem lt_iff_compare {a b : Float.Model} :
    a < b ↔ a.unpack.compare b.unpack = some .lt := by
  change (a.unpack.compare b.unpack == some .lt) = true ↔ _
  exact beq_iff_eq

theorem lt_iff {a b : Float.Model} {v w : ℚ} (ha : valueOf a.unpack = some v)
    (hb : valueOf b.unpack = some w) : a < b ↔ v < w := by
  have hsize : ∀ {m : Nat}, 0 < m → ∀ e : Int, (0 : ℚ) < m * 2 ^ e := by
    intro m hm e
    positivity
  rw [lt_iff_compare]
  rcases zero_or_finite ha with ⟨rfl, s, hu⟩ | ⟨s, m, e, hm, hu, rfl⟩ <;>
    rcases zero_or_finite hb with ⟨rfl, s', hu'⟩ | ⟨s', m', e', hm', hu', rfl⟩ <;>
    rw [hu, hu']
  · simp [UnpackedFloat.compare]
  · have := hsize hm' e'
    cases s' <;> simp [UnpackedFloat.compare, scaled, Sign.apply, this, this.le]
  · have := hsize hm e
    cases s <;> simp [UnpackedFloat.compare, scaled, Sign.apply, this, this.le]
  · have hp := hsize hm e
    have hp' := hsize hm' e'
    have hc := (canonical_of_unpack hu).1
    have hc' := (canonical_of_unpack hu').1
    cases s <;> cases s' <;>
      simp only [UnpackedFloat.compare, scaled, Sign.apply, Option.some.injEq, Int.cast_neg,
        Int.cast_natCast, neg_mul]
    · rw [neg_lt_neg_iff, Ordering.swap_then, Int.compare_swap, Nat.compare_swap,
        compare_eq_lt_iff hc' hc]
    · exact iff_of_true trivial (by linarith)
    · exact iff_of_false (by decide) (by linarith)
    · exact compare_eq_lt_iff hc hc'

theorem valueOf_clamp {lo hi y : Float.Model} {l h v : ℚ} (hlo : valueOf lo.unpack = some l)
    (hhi : valueOf hi.unpack = some h) (hy : valueOf y.unpack = some v) :
    valueOf (clamp lo hi y).unpack = some (min h (max l v)) := by
  have hraised : valueOf (if y < lo then lo else y).unpack = some (max l v) := by
    by_cases hc : v < l
    · rw [if_pos ((lt_iff hy hlo).mpr hc), hlo, max_eq_left hc.le]
    · rw [if_neg (mt (lt_iff hy hlo).mp hc), hy, max_eq_right (not_lt.mp hc)]
  rw [clamp]
  by_cases hc : h < max l v
  · rw [if_pos ((lt_iff hhi hraised).mpr hc), hhi, min_eq_left hc.le]
  · rw [if_neg (mt (lt_iff hhi hraised).mp hc), hraised, min_eq_right (not_lt.mp hc)]

theorem lt_infinite {a y : Float.Model} {v : ℚ} {negative : Bool} (ha : valueOf a.unpack = some v)
    (hy : y.unpack = .infinity (signOf negative)) :
    (y < a ↔ negative = true) ∧ (a < y ↔ negative = false) := by
  rw [lt_iff_compare, lt_iff_compare, hy]
  rcases zero_or_finite ha with ⟨-, s, hu⟩ | ⟨s, m, e, hm, hu, -⟩ <;> rw [hu] <;> cases negative <;>
    simp [UnpackedFloat.compare, signOf]

theorem clamp_infinite {lo hi y : Float.Model} {l h : ℚ} {negative : Bool}
    (hlo : valueOf lo.unpack = some l) (hhi : valueOf hi.unpack = some h) (hle : l ≤ h)
    (hy : y.unpack = .infinity (signOf negative)) :
    clamp lo hi y = if negative then lo else hi := by
  rw [clamp]
  cases negative with
  | true =>
    rw [if_pos ((lt_infinite hlo hy).1.mpr rfl), if_neg (mt (lt_iff hhi hlo).mp (not_lt.mpr hle))]
    rfl
  | false =>
    rw [if_neg (mt (lt_infinite hlo hy).1.mp (by simp)), if_pos ((lt_infinite hhi hy).2.mpr rfl)]
    rfl

/-- A product with a power of two is exact, or too large for a number. -/
theorem valueOf_mul_two_pow {y : Float.Model} {v : ℚ} (h : valueOf y.unpack = some v) {k : Nat}
    (hk : k ≤ 52) :
    valueOf (y * .ofNat (2 ^ k)).unpack = some (v * 2 ^ k) ∨
      ∃ negative, (y * .ofNat (2 ^ k)).unpack = .infinity (signOf negative) ∧
        if negative then v * 2 ^ k ≤ -2 ^ 64 else 2 ^ 64 ≤ v * 2 ^ k := by
  rcases zero_or_finite h with ⟨rfl, s, hu⟩ | ⟨s, m, e, hm, hu, rfl⟩
  · left
    rw [mul_eq, hu, unpack_two_pow hk, UnpackedFloat.mul, zero_mul]
    cases s <;> rfl
  · obtain ⟨i, hc, hmul⟩ := exists_mul_two_pow hu hk
    have hscaled : scaled s (m * 2 ^ i) (e + k - i) = scaled s m e * 2 ^ k := by
      rw [scaled_mul_two_pow, scaled_add]
    rw [hmul]
    by_cases he : e + k - i ≤ 971
    · left
      rw [unpack_finite hc he, valueOf, hscaled]
    · right
      obtain ⟨negative, rfl⟩ := exists_signOf s
      have hlarge : (2 : ℚ) ^ 64 ≤ (m * 2 ^ i : ℕ) * 2 ^ (e + k - i) := by
        have hone : (1 : ℚ) ≤ (m * 2 ^ i : ℕ) := by exact_mod_cast hc.pos
        calc (2 : ℚ) ^ 64 = 1 * 2 ^ (64 : ℤ) := by rw [one_mul, zpow_ofNat]
          _ ≤ (m * 2 ^ i : ℕ) * 2 ^ (e + k - i) := by
            gcongr
            · norm_num
            · omega
      refine ⟨negative, unpack_infinite hc.pos (by omega) _, ?_⟩
      rw [← hscaled, scaled]
      cases negative
      · exact hlarge
      · simpa [signOf, Sign.apply] using hlarge

theorem unpack_infinity_mul {y : Float.Model} {s : Sign} (h : y.unpack = .infinity s) {k : Nat}
    (hk : k ≤ 52) : (y * .ofNat (2 ^ k)).unpack = .infinity s := by
  rw [mul_eq, h, unpack_two_pow hk, UnpackedFloat.mul, mul_positive]
  cases s <;> rfl

end Double

namespace DataType

open Double

theorem natAbs_lt {dt : DataType} {raw : Int} (h : dt.Holds raw) : raw.natAbs < 2 ^ 53 := by
  cases dt <;> simp only [Holds, minRaw, maxRaw, widthBits] at h <;> omega

theorem holds_minRaw (dt : DataType) : dt.Holds dt.minRaw := by
  cases dt <;> decide

theorem holds_maxRaw (dt : DataType) : dt.Holds dt.maxRaw := by
  cases dt <;> decide

theorem binaryPoint_le (dt : DataType) : dt.binaryPoint ≤ 52 := by
  cases dt <;> decide

theorem minRaw_bounds (dt : DataType) : -2 ^ 31 ≤ dt.minRaw ∧ dt.minRaw ≤ dt.maxRaw ∧
    dt.maxRaw < 2 ^ 31 := by
  cases dt <;> decide

theorem toFixed_nan (dt : DataType) {x : Double} (h : x.datum = .nan) : dt.toFixed x = 0 := by
  have hnan : x.number.isNaN = true := by
    change x.number.unpack.isNaN = true
    rw [unpack_number, h]
    rfl
  rw [toFixed]
  exact if_pos hnan

theorem toFixed_eq_clamp (dt : DataType) {x : Double} (h : x.datum ≠ .nan) :
    dt.toFixed x = (clamp (.ofInt dt.minRaw) (.ofInt dt.maxRaw)
      (truncate (x.number * .ofNat (2 ^ dt.binaryPoint)))).toInt32.toInt := by
  have hnan : ¬ x.number.isNaN = true := by
    change ¬ x.number.unpack.isNaN = true
    rw [unpack_number]
    cases hd : x.datum with
    | nan => exact absurd hd h
    | infinite negative => exact Bool.false_ne_true
    | finite negative m e =>
      rw [Datum.unpacked]
      split <;> exact Bool.false_ne_true
  rw [toFixed]
  exact if_neg hnan

theorem toInt32_ofInt {n : Int} (hlo : -2 ^ 31 ≤ n) (hhi : n < 2 ^ 31) :
    (Float.Model.ofInt n).toInt32.toInt = n :=
  toInt32_eq (valueOf_ofInt (by omega)) hlo hhi

theorem toInt32_clamp_infinite (dt : DataType) {y : Float.Model} {negative : Bool}
    (h : y.unpack = .infinity (signOf negative)) :
    (clamp (.ofInt dt.minRaw) (.ofInt dt.maxRaw) (truncate y)).toInt32.toInt =
      if negative then dt.minRaw else dt.maxRaw := by
  obtain ⟨hlo, hle, hhi⟩ := dt.minRaw_bounds
  rw [clamp_infinite (valueOf_ofInt (natAbs_lt dt.holds_minRaw))
    (valueOf_ofInt (natAbs_lt dt.holds_maxRaw)) (Int.cast_le.mpr hle) (unpack_truncate_infinity h)]
  cases negative
  · exact toInt32_ofInt (by omega) hhi
  · exact toInt32_ofInt hlo (by omega)

theorem toFixed_infinite (dt : DataType) {x : Double} {negative : Bool}
    (h : x.datum = .infinite negative) :
    dt.toFixed x = if negative then dt.minRaw else dt.maxRaw := by
  have hx : x.number.unpack = .infinity (signOf negative) := by
    rw [unpack_number, h]
    rfl
  rw [toFixed_eq_clamp dt (by simp [h]),
    dt.toInt32_clamp_infinite (unpack_infinity_mul hx dt.binaryPoint_le)]

theorem toFixed_finite (dt : DataType) {x : Double} {v : ℚ} (h : x.value? = some v) :
    dt.toFixed x = max dt.minRaw (min dt.maxRaw (towardZero (v * 2 ^ dt.binaryPoint))) := by
  obtain ⟨hlo, hle, hhi⟩ := dt.minRaw_bounds
  have hnan : x.datum ≠ .nan := by
    intro hd
    rw [value?, hd] at h
    cases h
  rw [toFixed_eq_clamp dt hnan]
  rw [← valueOf_number] at h
  rcases valueOf_mul_two_pow h dt.binaryPoint_le with hv | ⟨negative, hu, hlarge⟩
  · have hclamp := valueOf_clamp (valueOf_ofInt (natAbs_lt dt.holds_minRaw))
      (valueOf_ofInt (natAbs_lt dt.holds_maxRaw)) (valueOf_truncate hv)
    rw [← Int.cast_max, ← Int.cast_min] at hclamp
    rw [toInt32_eq hclamp (by omega) (by omega)]
    omega
  · rw [dt.toInt32_clamp_infinite hu]
    cases negative with
    | true =>
      have hq : v * 2 ^ dt.binaryPoint ≤ (-2 ^ 31 : ℤ) := hlarge.trans (by norm_num)
      have hn : towardZero (v * 2 ^ dt.binaryPoint) ≤ -2 ^ 31 := by
        rw [towardZero, if_pos (hlarge.trans_lt (by norm_num))]
        exact Int.ceil_le.mpr hq
      simp only [if_true]
      omega
    | false =>
      have hq : ((2 ^ 31 : ℤ) : ℚ) ≤ v * 2 ^ dt.binaryPoint := le_trans (by norm_num) hlarge
      have hn : 2 ^ 31 ≤ towardZero (v * 2 ^ dt.binaryPoint) := by
        rw [towardZero, if_neg (not_lt.mpr (le_trans (by norm_num) hlarge))]
        exact Int.le_floor.mpr hq
      simp only [Bool.false_eq_true, if_false]
      omega

theorem value?_fromFixed (dt : DataType) {raw : Int} (h : dt.Holds raw) :
    (dt.fromFixed raw).value? = some ((raw : ℚ) / 2 ^ dt.binaryPoint) := by
  rw [fromFixed, value?_ofNumber, valueOf_ofInt_div (natAbs_lt h) dt.binaryPoint_le]

theorem toFixed_fromFixed (dt : DataType) {raw : Int} (h : dt.Holds raw) :
    dt.toFixed (dt.fromFixed raw) = raw := by
  have hcancel : (raw : ℚ) / 2 ^ dt.binaryPoint * 2 ^ dt.binaryPoint = raw :=
    div_mul_cancel₀ _ (by positivity)
  rw [dt.toFixed_finite (dt.value?_fromFixed h), hcancel, towardZero_intCast]
  exact saturate_eq_self h

theorem holds_toFixed (dt : DataType) (x : Double) : dt.Holds (dt.toFixed x) := by
  cases hd : x.datum with
  | nan =>
    rw [dt.toFixed_nan hd]
    cases dt <;> decide
  | infinite negative =>
    rw [dt.toFixed_infinite hd]
    cases negative
    · exact dt.holds_maxRaw
    · exact dt.holds_minRaw
  | finite negative m e =>
    rw [dt.toFixed_finite (by rw [value?, hd]; rfl)]
    exact holds_saturate ..

theorem value?_fromFixed_toFixed (dt : DataType) {x : Double} {v : ℚ} (h : x.value? = some v)
    (hlo : (dt.minRaw : ℚ) - 1 < v * 2 ^ dt.binaryPoint)
    (hhi : v * 2 ^ dt.binaryPoint < dt.maxRaw + 1) :
    ∃ w, (dt.fromFixed (dt.toFixed x)).value? = some w ∧ |w| ≤ |v| ∧
      |v - w| < 1 / 2 ^ dt.binaryPoint := by
  have hzero : dt.Holds 0 := by cases dt <;> decide
  have hmem : dt.Holds (towardZero (v * 2 ^ dt.binaryPoint)) :=
    towardZero_mem hzero.1 hzero.2 hlo hhi
  have hraw : dt.toFixed x = towardZero (v * 2 ^ dt.binaryPoint) := by
    rw [dt.toFixed_finite h]
    exact saturate_eq_self hmem
  have hpos : (0 : ℚ) < 2 ^ dt.binaryPoint := by positivity
  refine ⟨_, dt.value?_fromFixed (hraw ▸ hmem), ?_, ?_⟩
  · rw [hraw, abs_div, abs_of_pos hpos, div_le_iff₀ hpos]
    calc |(towardZero (v * 2 ^ dt.binaryPoint) : ℚ)| ≤ |v * 2 ^ dt.binaryPoint| :=
          abs_towardZero_le _
      _ = |v| * 2 ^ dt.binaryPoint := by rw [abs_mul, abs_of_pos hpos]
  · have hdiff : v - towardZero (v * 2 ^ dt.binaryPoint) / 2 ^ dt.binaryPoint =
        (v * 2 ^ dt.binaryPoint - towardZero (v * 2 ^ dt.binaryPoint)) / 2 ^ dt.binaryPoint := by
      rw [sub_div, mul_div_cancel_right₀ _ hpos.ne']
    rw [hraw, hdiff, abs_div, abs_of_pos hpos]
    exact div_lt_div_of_pos_right (abs_sub_towardZero_lt _) hpos

/-- Conversion truncates and saturates, and rounds nothing otherwise. -/
theorem conversion_exact (dt : DataType) :
    (∀ (x : Double) (v : ℚ), x.value? = some v →
      dt.toFixed x = max dt.minRaw (min dt.maxRaw (towardZero (v * 2 ^ dt.binaryPoint)))) ∧
    (∀ x : Double, x.datum = .nan → dt.toFixed x = 0) ∧
    (∀ (x : Double) (negative : Bool), x.datum = .infinite negative →
      dt.toFixed x = if negative then dt.minRaw else dt.maxRaw) ∧
    (∀ raw : Int, dt.Holds raw →
      (dt.fromFixed raw).value? = some ((raw : ℚ) / 2 ^ dt.binaryPoint) ∧
        dt.toFixed (dt.fromFixed raw) = raw) ∧
    (∀ (x : Double) (v : ℚ), x.value? = some v →
      (dt.minRaw : ℚ) - 1 < v * 2 ^ dt.binaryPoint → v * 2 ^ dt.binaryPoint < dt.maxRaw + 1 →
      ∃ w, (dt.fromFixed (dt.toFixed x)).value? = some w ∧ |w| ≤ |v| ∧
        |v - w| < 1 / 2 ^ dt.binaryPoint) := by
  refine ⟨fun x v h => dt.toFixed_finite h, fun x h => dt.toFixed_nan h,
    fun x negative h => dt.toFixed_infinite h, fun raw h => ?_,
    fun x v h hlo hhi => dt.value?_fromFixed_toFixed h hlo hhi⟩
  exact ⟨dt.value?_fromFixed h, dt.toFixed_fromFixed h⟩

/-- The case of -0.999, of what has no value and of the largest scalar. -/
theorem conversion_exact_fp16bp8 :
    (∃ v, (⟨0xbfeff7ced916872b⟩ : Double).value? = some v ∧
      fp16bp8.toFixed ⟨0xbfeff7ced916872b⟩ =
        max (-32768) (min 32767 (towardZero (v * 2 ^ 8))) ∧
      ∃ w, (fp16bp8.fromFixed (fp16bp8.toFixed ⟨0xbfeff7ced916872b⟩)).value? = some w ∧
        |w| ≤ |v| ∧ |v - w| < 1 / 2 ^ 8) ∧
    fp16bp8.toFixed ⟨0x7ff8000000000000⟩ = 0 ∧
    fp16bp8.toFixed ⟨0xfff0000000000000⟩ = -32768 ∧
    fp16bp8.toFixed (fp16bp8.fromFixed 32767) = 32767 := by
  obtain ⟨hfinite, hnan, hinfinite, hraw, hback⟩ := conversion_exact fp16bp8
  have hv : (⟨0xbfeff7ced916872b⟩ : Double).value? = some (-8998192055486251 * 2 ^ (-53 : ℤ)) := by
    have hd : (⟨0xbfeff7ced916872b⟩ : Double).datum = .finite true 8998192055486251 (-53) := by
      decide
    rw [Double.value?, hd, Double.Datum.value?]
    norm_num
  have hmin : fp16bp8.minRaw = -32768 := by decide
  have hmax : fp16bp8.maxRaw = 32767 := by decide
  have hpoint : fp16bp8.binaryPoint = 8 := by decide
  refine ⟨⟨_, hv, hfinite _ _ hv, hback _ _ hv ?_ ?_⟩, hnan _ (by decide),
    hinfinite _ true (by decide), (hraw 32767 (by decide)).2⟩
  · rw [hmin, hpoint]
    norm_num
  · rw [hmax, hpoint]
    norm_num

end DataType

end TensorUnit
