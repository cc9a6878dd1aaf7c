import TensorUnit.Architecture

namespace TensorUnit.Architecture

variable {arch : Architecture} {space : Space} {start count : UInt64}

theorem toNat_rangeEnd (start count : UInt64) :
    (rangeEnd start count).toNat = min (start.toNat + count.toNat) (2 ^ 64 - 1) := by
  unfold rangeEnd
  cases h : Exact.add? start count with
  | some stop =>
    have hstop := Exact.add?_eq_some_iff.mp h
    have hlt := stop.toNat_lt
    rw [Option.getD_some]
    omega
  | none =>
    have hlarge := Exact.ofNat?_eq_none_iff.mp h
    rw [Option.getD_none]
    change 2 ^ 64 - 1 = _
    omega

theorem checkRows_eq_ok_iff :
    arch.checkRows space start count = .ok () ↔
      start.toNat + count.toNat ≤ (arch.depth space).toNat ∨
        (arch.depth space).toNat = 2 ^ 64 - 1 := by
  have hend : ¬ arch.depth space < rangeEnd start count ↔
      min (start.toNat + count.toNat) (2 ^ 64 - 1) ≤ (arch.depth space).toNat := by
    rw [UInt64.not_lt, UInt64.le_iff_toNat_le, toNat_rangeEnd]
  have hlt := (arch.depth space).toNat_lt
  simp only [checkRows]
  split
  · rename_i hbeyond
    have hnot : ¬ min (start.toNat + count.toNat) (2 ^ 64 - 1) ≤ (arch.depth space).toNat :=
      fun hle => hend.mpr hle hbeyond
    exact iff_of_false nofun (by omega)
  · rename_i hwithin
    have hle := hend.mp hwithin
    exact iff_of_true rfl (by omega)

end TensorUnit.Architecture
