import TensorUnit.DataType.Codec
import TensorUnit.Proofs.Packing

namespace TensorUnit

theorem two_le_scalarBytes (dt : DataType) : 2 ≤ dt.scalarBytes := by
  cases dt <;> decide

theorem scalarBytes_pos (dt : DataType) : 0 < dt.scalarBytes :=
  Nat.lt_of_lt_of_le Nat.zero_lt_two (two_le_scalarBytes dt)

namespace DataType

variable {dt : DataType}

theorem one_le_maxRaw (dt : DataType) : 1 ≤ dt.maxRaw := by
  cases dt <;> decide

theorem toBytes_eq_ok_iff {values : List Int} {bytes : List UInt8} :
    dt.toBytes values = .ok bytes ↔
      (∀ v ∈ values, dt.Holds v) ∧ values.flatMap dt.scalarToBytes = bytes := by
  unfold toBytes
  cases hf : values.find? fun raw => ¬ dt.Holds raw with
  | some v =>
    have hv := List.find?_some hf
    have hn : ¬ dt.Holds v := of_decide_eq_true hv
    simp only [reduceCtorEq, false_iff]
    exact fun h => hn (h.1 v (List.mem_of_find?_eq_some hf))
  | none =>
    simp only [Except.ok.injEq, iff_and_self]
    intro _ v hv
    have hn := List.find?_eq_none.mp hf v hv
    simpa using hn

theorem length_scalars (dt : DataType) (values : List Int) :
    (values.flatMap dt.scalarToBytes).length = values.length * dt.scalarBytes := by
  induction values with
  | nil => rw [List.flatMap_nil, List.length_nil, List.length_nil, Nat.zero_mul]
  | cons v values ih =>
    rw [List.flatMap_cons, List.length_append, ih, DataType.scalarToBytes, Bytes.length_ofNat,
      List.length_cons, Nat.succ_mul, Nat.add_comm]

theorem length_toBytes {values : List Int} {bytes : List UInt8}
    (h : dt.toBytes values = .ok bytes) : bytes.length = values.length * dt.scalarBytes := by
  obtain ⟨_, rfl⟩ := toBytes_eq_ok_iff.mp h
  exact length_scalars dt values

theorem length_ofBytes (dt : DataType) (bytes : List UInt8) :
    (dt.ofBytes bytes).length = bytes.length / dt.scalarBytes := by
  rw [ofBytes, List.length_map, Bytes.length_words]

theorem ofBytes_append (dt : DataType) {first : List UInt8} (rest : List UInt8)
    (h : first.length % dt.scalarBytes = 0) :
    dt.ofBytes (first ++ rest) = dt.ofBytes first ++ dt.ofBytes rest := by
  rw [ofBytes, Bytes.words_append (scalarBytes_pos dt) h, List.map_append]
  rfl

theorem ofPattern_pattern {raw : Int} (h : dt.Holds raw) : dt.ofPattern (dt.pattern raw) = raw := by
  obtain ⟨hlo, hhi⟩ := h
  have hnonneg : 0 ≤ raw % 2 ^ dt.widthBits := Int.emod_nonneg _ (by cases dt <;> decide)
  have hmod : ((2 ^ dt.widthBits : Nat) : Int) = 2 ^ dt.widthBits := by cases dt <;> rfl
  rw [ofPattern, pattern, Int.toNat_of_nonneg hnonneg, ← hmod, Int.emod_bmod]
  apply Int.bmod_eq_of_le <;> cases dt <;> simp only [minRaw, maxRaw, widthBits] at * <;> omega

theorem pattern_lt (dt : DataType) (raw : Int) : dt.pattern raw < 256 ^ dt.scalarBytes := by
  have hbits : (256 : Nat) ^ dt.scalarBytes = 2 ^ dt.widthBits := by cases dt <;> rfl
  have hmod := Int.emod_lt_of_pos raw (b := 2 ^ dt.widthBits) (by cases dt <;> decide)
  have hnonneg : 0 ≤ raw % 2 ^ dt.widthBits := Int.emod_nonneg _ (by cases dt <;> decide)
  have hcast : ((2 ^ dt.widthBits : Nat) : Int) = 2 ^ dt.widthBits := by cases dt <;> rfl
  rw [hbits, pattern]
  omega

theorem toNat_scalarToBytes (dt : DataType) (raw : Int) :
    Bytes.toNat (dt.scalarToBytes raw) = dt.pattern raw := by
  rw [scalarToBytes, Bytes.toNat_ofNat, Nat.mod_eq_of_lt (pattern_lt dt raw)]

theorem words_scalars (dt : DataType) (values : List Int) :
    Bytes.words dt.scalarBytes (values.flatMap dt.scalarToBytes) =
      values.map dt.scalarToBytes := by
  rw [List.flatMap_def]
  apply Bytes.words_flatten (scalarBytes_pos dt)
  intro word hw
  obtain ⟨v, _, rfl⟩ := List.mem_map.mp hw
  exact Bytes.length_ofNat ..

theorem ofBytes_toBytes {values : List Int} {bytes : List UInt8}
    (h : dt.toBytes values = .ok bytes) : dt.ofBytes bytes = values := by
  obtain ⟨hv, rfl⟩ := toBytes_eq_ok_iff.mp h
  have hback : ∀ v ∈ values, dt.ofPattern (Bytes.toNat (dt.scalarToBytes v)) = v := by
    intro v hm
    rw [toNat_scalarToBytes, ofPattern_pattern (hv v hm)]
  rw [ofBytes, words_scalars, List.map_map]
  exact (List.map_congr_left hback).trans (List.map_id _)

theorem holds_ofPattern (dt : DataType) (pattern : Nat) : dt.Holds (dt.ofPattern pattern) := by
  have hlo := Int.le_bmod (x := pattern) (m := 2 ^ dt.widthBits) (by cases dt <;> decide)
  have hhi := Int.bmod_lt (x := pattern) (m := 2 ^ dt.widthBits) (by cases dt <;> decide)
  rw [Holds, ofPattern]
  generalize Int.bmod pattern (2 ^ dt.widthBits) = raw at hlo hhi ⊢
  cases dt <;> simp only [minRaw, maxRaw, widthBits] at * <;> omega

theorem holds_of_mem_ofBytes {bytes : List UInt8} {v : Int} (h : v ∈ dt.ofBytes bytes) :
    dt.Holds v := by
  obtain ⟨word, _, rfl⟩ := List.mem_map.mp h
  exact holds_ofPattern ..

theorem scalarToBytes_ofPattern {word : List UInt8} (h : word.length = dt.scalarBytes) :
    dt.scalarToBytes (dt.ofPattern (Bytes.toNat word)) = word := by
  have hlt := Bytes.toNat_lt word
  have hbits : (256 : Nat) ^ dt.scalarBytes = 2 ^ dt.widthBits := by cases dt <;> rfl
  have hcast : ((2 ^ dt.widthBits : Nat) : Int) = 2 ^ dt.widthBits := by cases dt <;> rfl
  rw [h, hbits] at hlt
  have hpattern : dt.pattern (dt.ofPattern (Bytes.toNat word)) = Bytes.toNat word := by
    rw [pattern, ofPattern, ← hcast, Int.bmod_emod, Int.emod_eq_of_lt (by omega) (by omega),
      Int.toNat_natCast]
  rw [scalarToBytes, hpattern, ← h, Bytes.ofNat_toNat]

theorem toBytes_ofBytes_take (dt : DataType) (bytes : List UInt8) :
    dt.toBytes (dt.ofBytes bytes) =
      .ok (bytes.take (bytes.length / dt.scalarBytes * dt.scalarBytes)) := by
  refine toBytes_eq_ok_iff.mpr ⟨fun v hv => holds_of_mem_ofBytes hv, ?_⟩
  have hwords : (Bytes.words dt.scalarBytes bytes).map
      (fun word => dt.scalarToBytes (dt.ofPattern (Bytes.toNat word))) =
      Bytes.words dt.scalarBytes bytes :=
    (List.map_congr_left fun word hw =>
      scalarToBytes_ofPattern (Bytes.length_of_mem_words hw)).trans (List.map_id _)
  rw [ofBytes, List.flatMap_map, List.flatMap_def, hwords, Bytes.words, Bytes.flatten_pieces]

theorem toBytes_ofBytes {bytes : List UInt8} (h : bytes.length % dt.scalarBytes = 0) :
    dt.toBytes (dt.ofBytes bytes) = .ok bytes := by
  rw [toBytes_ofBytes_take, Nat.div_mul_cancel (Nat.dvd_of_mod_eq_zero h), List.take_length]

theorem ofBytes_flatten {pieces : List (List UInt8)}
    (h : ∀ piece ∈ pieces, piece.length % dt.scalarBytes = 0) (rest : List UInt8) :
    dt.ofBytes (pieces.flatten ++ rest) = pieces.flatMap dt.ofBytes ++ dt.ofBytes rest := by
  induction pieces with
  | nil => rfl
  | cons piece pieces ih =>
    rw [List.flatten_cons, List.append_assoc, ofBytes_append _ _ (h piece List.mem_cons_self),
      ih fun other hm => h other (List.mem_cons_of_mem _ hm), List.flatMap_cons,
      List.append_assoc]

/--
Scalars are written exactly if each of them is in range: word by word their two's complement,
which reads back as the scalars. Any bytes are read as scalars in range, as many as there are whole
words, and are written back but for a last partial word. Where a stream is cut between words, its
pieces are read one by one.
-/
theorem codec_exact (dt : DataType) :
    (∀ values : List Int,
      (∃ bytes, dt.toBytes values = .ok bytes) ↔ ∀ v ∈ values, dt.Holds v) ∧
    (∀ (values : List Int) (bytes : List UInt8), dt.toBytes values = .ok bytes →
      (Bytes.words dt.scalarBytes bytes).map Bytes.toNat =
          values.map (fun v => (v % 2 ^ dt.widthBits).toNat) ∧
        bytes.length = values.length * dt.scalarBytes ∧
        dt.ofBytes bytes = values) ∧
    (∀ bytes : List UInt8,
      (dt.ofBytes bytes).length = bytes.length / dt.scalarBytes ∧
        (∀ v ∈ dt.ofBytes bytes, dt.Holds v) ∧
        dt.toBytes (dt.ofBytes bytes) =
          .ok (bytes.take (bytes.length / dt.scalarBytes * dt.scalarBytes))) ∧
    ∀ (pieces : List (List UInt8)) (rest : List UInt8),
      (∀ piece ∈ pieces, piece.length % dt.scalarBytes = 0) →
        dt.ofBytes (pieces.flatten ++ rest) = pieces.flatMap dt.ofBytes ++ dt.ofBytes rest := by
  refine ⟨fun values => ⟨?_, ?_⟩, fun values bytes h => ⟨?_, length_toBytes h, ofBytes_toBytes h⟩,
    fun bytes => ⟨length_ofBytes dt bytes, fun v hv => holds_of_mem_ofBytes hv,
      toBytes_ofBytes_take dt bytes⟩, fun pieces rest h => ofBytes_flatten h rest⟩
  · rintro ⟨bytes, h⟩
    exact (toBytes_eq_ok_iff.mp h).1
  · exact fun h => ⟨_, toBytes_eq_ok_iff.mpr ⟨h, rfl⟩⟩
  · obtain ⟨-, rfl⟩ := toBytes_eq_ok_iff.mp h
    rw [words_scalars, List.map_map]
    exact List.map_congr_left fun v _ => toNat_scalarToBytes dt v

/-- The extremes of the range, and a stream of three whole scalars and half a scalar. -/
theorem codec_exact_fp16bp8 :
    fp16bp8.toBytes [-32768, -1, 32767] = .ok [0x00, 0x80, 0xff, 0xff, 0xff, 0x7f] ∧
      fp16bp8.ofBytes [0x00, 0x80, 0xff, 0xff, 0xff, 0x7f] = [-32768, -1, 32767] ∧
      (∀ piece ∈ [[0x00, 0x80], [0xff, 0xff]], List.length piece % fp16bp8.scalarBytes = 0) ∧
      fp16bp8.ofBytes ([[0x00, 0x80], [0xff, 0xff]].flatten ++ [0xff, 0x7f, 0x2a]) =
        [[0x00, 0x80], [0xff, 0xff]].flatMap fp16bp8.ofBytes ++
          fp16bp8.ofBytes [0xff, 0x7f, 0x2a] :=
  ⟨rfl, ((codec_exact fp16bp8).2.1 _ _ rfl).2.2, by decide,
    (codec_exact fp16bp8).2.2.2 [[0x00, 0x80], [0xff, 0xff]] _ (by decide)⟩

end DataType

end TensorUnit
