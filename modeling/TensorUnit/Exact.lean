import TensorUnit.Numerals

namespace TensorUnit.Exact

def ofNat? (n : Nat) : Option UInt64 :=
  if n < 2 ^ 64 then some (.ofNat n) else none

def add? (a b : UInt64) : Option UInt64 :=
  ofNat? (a.toNat + b.toNat)

def mul? (a b : UInt64) : Option UInt64 :=
  ofNat? (a.toNat * b.toNat)

theorem ofNat?_eq_some_iff {n : Nat} {c : UInt64} : ofNat? n = some c ↔ n = c.toNat := by
  unfold ofNat?
  constructor
  · intro h
    split at h
    · rename_i hn
      cases h
      exact (UInt64.toNat_ofNat_of_lt' hn).symm
    · cases h
  · rintro rfl
    rw [if_pos c.toNat_lt, UInt64.ofNat_toNat]

theorem ofNat?_eq_none_iff {n : Nat} : ofNat? n = none ↔ 2 ^ 64 ≤ n := by
  unfold ofNat?
  split <;> simp <;> omega

theorem add?_eq_some_iff {a b c : UInt64} : add? a b = some c ↔ a.toNat + b.toNat = c.toNat :=
  ofNat?_eq_some_iff

theorem mul?_eq_some_iff {a b c : UInt64} : mul? a b = some c ↔ a.toNat * b.toNat = c.toNat :=
  ofNat?_eq_some_iff

end TensorUnit.Exact
