import TensorUnit.Proofs.Action
import TensorUnit.Proofs.Tcu.Canonical

namespace TensorUnit

theorem lt_two_pow_bitsFor {n depth : Nat} (h : n < depth) : n < 2 ^ bitsFor depth := by
  unfold bitsFor
  split
  · omega
  · exact Nat.lt_of_le_of_lt (Nat.le_sub_one_of_lt h) Nat.lt_log2_self

namespace Tcu

namespace Layout

variable {arch : Architecture} {row : Nat}

theorem lt_op0Address (h : row < arch.localDepth.toNat) :
    row < 2 ^ (ofDepths arch).op0AddressBits :=
  Nat.lt_of_lt_of_le (lt_two_pow_bitsFor h)
    (Nat.pow_le_pow_right (by decide) (Nat.le_max_left ..))

theorem lt_op1Address (space : Space) (h : row < (arch.depth space).toNat) :
    row < 2 ^ (ofDepths arch).op1AddressBits := by
  refine Nat.lt_of_lt_of_le (lt_two_pow_bitsFor h) (Nat.pow_le_pow_right (by decide) ?_)
  cases space <;> simp only [ofDepths] <;> omega

end Layout

theorem width_flags (l : Layout) (opcode : Opcode) :
    (blank l opcode).width "flags" = flagsBits := by
  cases opcode <;> simp [blank, lowFields, FieldSet.width_cons]

namespace Instruction

variable {arch : Architecture} {l : Layout}

theorem flags_lt (instr : Instruction) : instr.flags < 2 ^ flagsBits := by
  cases instr with
  | noOp | configure => exact Nat.two_pow_pos _
  | matMul accumulate zeroes =>
    change accumulate.toNat + 2 * zeroes.toNat < _
    cases accumulate <;> cases zeroes <;> decide
  | dataMove flag =>
    change flag.code < _
    cases flag <;> decide
  | loadWeights zeroes =>
    change zeroes.toNat < _
    cases zeroes <;> decide

/-- An instruction has a word exactly when its operands fit. -/
theorem encode_eq_ok_iff (hl : Layout.ofArchitecture arch = .ok l) {instr : Instruction} :
    (∃ word, instr.encode l = .ok word) ↔
      (instr.opcode = .configure → l.op0Bits ≤ 64 ∧ l.op1Bits ≤ 64) ∧
        ∀ v ∈ instr.operands, v.2 < 2 ^ (blank l instr.opcode).width v.1 := by
  rw [← Layout.width_le_iff hl]
  constructor
  · rintro ⟨word, h⟩
    obtain ⟨set, hset, _⟩ := exists_of_bind_ok h
    obtain ⟨ht, hs, hfit, hval⟩ := fields_spec hset
    refine ⟨(template_eq_ok_iff.mp ht).1, fun v hv => ?_⟩
    have hlt := FieldSet.value_lt_width hfit v.1
    rw [hval, lookup_of_mem instr.nodup_values (List.mem_cons_of_mem _ hv),
      FieldSet.width_eq_of_skeleton hs] at hlt
    exact hlt
  · rintro ⟨hw, hv⟩
    have hwhole := Layout.whole_ofArchitecture hl
    obtain ⟨set, hset⟩ : ∃ set, (blank l instr.opcode).setAll
        (("flags", instr.flags) :: instr.operands) = .ok set := by
      apply FieldSet.exists_setAll
      intro v hm
      refine ⟨operands_blank l instr v.1 (List.mem_map_of_mem hm), ?_⟩
      rcases List.mem_cons.mp hm with rfl | hm
      · rw [width_flags]
        exact instr.flags_lt
      · exact hv v hm
    have hfields : instr.fields l = .ok set := by
      rw [fields, template_eq_ok_iff.mpr ⟨hw, rfl⟩]
      exact hset
    obtain ⟨_, hs, hfit, _⟩ := fields_spec hfields
    have hbits : set.totalBits = l.instructionBits :=
      (FieldSet.totalBits_eq_of_skeleton hs).trans (totalBits_blank hwhole _)
    have hbytes := eight_mul_instructionBytes hwhole
    have hpos := hwhole.instructionBytes_pos
    have hpack := FieldSet.pack_eq_ok ⟨by omega, by omega⟩ (Nat.le_of_eq hbits) hfit
    exact ⟨_, by rw [encode, hfields]; exact hpack⟩

theorem exists_encode_of_fit (hl : Layout.ofArchitecture arch = .ok l) {instr : Instruction}
    (ho : instr.opcode ≠ .configure)
    (hv : ∀ v ∈ instr.operands, v.2 < 2 ^ (blank l instr.opcode).width v.1) :
    ∃ word, instr.encode l = .ok word :=
  (encode_eq_ok_iff hl).mpr ⟨fun h => absurd h ho, hv⟩

theorem fit_operands {opcode : Opcode} (ho : opcode ≠ .configure) {near far : StridedAddress}
    {size : UInt64} (hs : near.address.toNat < 2 ^ l.op0AddressBits)
    (hs' : near.stride.toNat < 2 ^ l.op0StrideBits)
    (ha : far.address.toNat < 2 ^ l.op1AddressBits)
    (ha' : far.stride.toNat < 2 ^ l.op1StrideBits) (hn : size.toNat < 2 ^ l.op2AddressBits) :
    ∀ v ∈ near.op0 ++ far.op1 ++ [("op2_address", size.toNat)],
      v.2 < 2 ^ (blank l opcode).width v.1 := by
  cases opcode <;> simp [StridedAddress.op0, StridedAddress.op1, blank, lowFields,
    FieldSet.width_cons, *] at ho ⊢

theorem exists_encode_dataMove (hl : Layout.ofArchitecture arch = .ok l) {flag : MoveFlag}
    {scratchpad address : StridedAddress} {size : UInt64}
    (hs : scratchpad.address.toNat < 2 ^ l.op0AddressBits)
    (hs' : scratchpad.stride.toNat < 2 ^ l.op0StrideBits)
    (ha : address.address.toNat < 2 ^ l.op1AddressBits)
    (ha' : address.stride.toNat < 2 ^ l.op1StrideBits)
    (hn : size.toNat < 2 ^ l.op2AddressBits) :
    ∃ word, (dataMove flag scratchpad address size).encode l = .ok word := by
  have ho : Opcode.dataMove ≠ .configure := by decide
  exact exists_encode_of_fit hl ho (fit_operands ho hs hs' ha ha' hn)

end Instruction

theorem assemble_eq_ok_iff {l : Layout} {program : List Instruction} :
    (∃ stream, assemble l program = .ok stream) ↔
      ∀ instr ∈ program, ∃ word, instr.encode l = .ok word := by
  rw [← exists_mapM_iff]
  constructor
  · rintro ⟨stream, h⟩
    obtain ⟨words, hw, _⟩ := assemble_eq_ok h
    exact ⟨words, hw⟩
  · rintro ⟨words, hw⟩
    exact ⟨words.flatten, by rw [assemble, hw]; rfl⟩

end Tcu

end TensorUnit
