import TensorUnit.Numerals

namespace TensorUnit.Bytes

/-- The number that a byte string spells, least significant byte first. -/
def toNat : List UInt8 → Nat
  | [] => 0
  | b :: bs => b.toNat + 256 * toNat bs

def ofNat : (size value : Nat) → List UInt8
  | 0, _ => []
  | size + 1, value => UInt8.ofNat value :: ofNat size (value / 256)

@[simp] theorem length_ofNat (size value : Nat) : (ofNat size value).length = size := by
  induction size generalizing value with
  | zero => rfl
  | succ size ih => simp [ofNat, ih]

theorem toNat_ofNat (size value : Nat) : toNat (ofNat size value) = value % 256 ^ size := by
  induction size generalizing value with
  | zero => simp [ofNat, toNat, Nat.mod_one]
  | succ size ih =>
    rw [ofNat, toNat, ih, Nat.pow_succ', Nat.mod_mul]
    simp

theorem ofNat_toNat (bytes : List UInt8) : ofNat bytes.length (toNat bytes) = bytes := by
  induction bytes with
  | nil => rfl
  | cons b bs ih =>
    have hb : b.toNat < 256 := UInt8.toNat_lt b
    have hq : (b.toNat + 256 * toNat bs) / 256 = toNat bs := by omega
    have hr : UInt8.ofNat (b.toNat + 256 * toNat bs) = b := by
      apply UInt8.toNat_inj.1
      simp only [UInt8.toNat_ofNat']
      omega
    simp only [List.length_cons, ofNat, toNat, hq, hr, ih]

theorem toNat_lt (bytes : List UInt8) : toNat bytes < 256 ^ bytes.length := by
  have h := toNat_ofNat bytes.length (toNat bytes)
  rw [ofNat_toNat] at h
  rw [h]
  exact Nat.mod_lt _ (Nat.pow_pos (by decide))

theorem toNat_append (a b : List UInt8) : toNat (a ++ b) = toNat a + 256 ^ a.length * toNat b := by
  induction a with
  | nil => simp [toNat]
  | cons x a ih =>
    rw [List.cons_append, toNat, toNat, ih, List.length_cons, Nat.pow_succ', Nat.mul_add,
      ← Nat.mul_assoc, Nat.add_assoc]

def slice? (bytes : List UInt8) (first last : Nat) : Option (List UInt8) :=
  if first ≤ last + 1 ∧ last < bytes.length then
    some ((bytes.drop first).take (last + 1 - first))
  else none

/-- Pieces of one size, the last one as long as the bytes last. -/
def pieces (size count : Nat) (bytes : List UInt8) : List (List UInt8) :=
  let packed := bytes.toArray
  (List.range count).map fun i => (packed.extract (i * size) ((i + 1) * size)).toList

theorem pieces_eq (size count : Nat) (bytes : List UInt8) :
    pieces size count bytes =
      (List.range count).map fun i => (bytes.drop (i * size)).take size := by
  simp [pieces, List.extract_eq_take_drop, Nat.add_mul]

theorem flatten_pieces (size count : Nat) (bytes : List UInt8) :
    (pieces size count bytes).flatten = bytes.take (count * size) := by
  rw [pieces_eq]
  induction count with
  | zero => simp
  | succ count ih =>
    rw [List.range_succ, List.map_append, List.flatten_append, ih]
    simp [Nat.add_mul, List.take_add]

/-- The whole words of a stream; a last partial word is dropped. -/
def words (size : Nat) (stream : List UInt8) : List (List UInt8) :=
  pieces size (stream.length / size) stream

theorem length_words (size : Nat) (stream : List UInt8) :
    (words size stream).length = stream.length / size := by
  simp [words, pieces]

def chunks (size : Nat) (bytes : List UInt8) : List (List UInt8) :=
  pieces size ((bytes.length + size - 1) / size) bytes

end TensorUnit.Bytes
