import Mathlib.Order.Bounds.Defs
import TensorUnit.Proofs.Tcu.Fitting
import TensorUnit.Proofs.Tcu.RoundTrip

namespace TensorUnit

theorem bitsFor_le_iff {depth bits : Nat} : bitsFor depth ≤ bits ↔ depth ≤ 2 ^ bits := by
  refine ⟨fun h => ?_, bitsFor_le⟩
  rcases Nat.eq_zero_or_pos depth with rfl | hpos
  · exact Nat.zero_le _
  · have hlt : depth - 1 < 2 ^ bitsFor depth := lt_two_pow_bitsFor (Nat.sub_one_lt_of_lt hpos)
    have hle := Nat.pow_le_pow_right (by decide : 0 < 2) h
    omega

theorem bitsFor_eq_zero_iff {depth : Nat} : bitsFor depth = 0 ↔ depth ≤ 1 := by
  rw [← Nat.le_zero, bitsFor_le_iff, Nat.pow_zero]

namespace Tcu

/-- Whole bytes with room for some bits, and for fewer than eight bits more. -/
def Rounds (total used : Nat) : Prop :=
  total % 8 = 0 ∧ used ≤ total ∧ total < used + 8

theorem rounds_roundToByte (bits : Nat) : Rounds (roundToByte bits) bits := by
  unfold Rounds roundToByte
  omega

def StridedAddress.Within (a : StridedAddress) (depth strideDepth : UInt64) : Prop :=
  a.address < depth ∧ a.stride < strideDepth

/-- The instruction names rows of the memories, steps of the unit, and no more rows than there are.
Configure names none of these. -/
def Instruction.InRange (arch : Architecture) : Instruction → Prop
  | noOp => True
  | matMul _ _ scratchpad accumulator size =>
    scratchpad.Within arch.localDepth arch.stride0Depth ∧
      accumulator.Within arch.accumulatorDepth arch.stride1Depth ∧
      size.toNat < max arch.localDepth.toNat arch.accumulatorDepth.toNat
  | dataMove flag scratchpad address size =>
    scratchpad.Within arch.localDepth arch.stride0Depth ∧
      address.Within (arch.depth flag.remote) arch.stride1Depth ∧
      size.toNat < max arch.localDepth.toNat arch.accumulatorDepth.toNat
  | loadWeights _ scratchpad size =>
    scratchpad.Within arch.localDepth arch.stride0Depth ∧ size < arch.localDepth
  | configure .. => False

namespace Layout

variable {arch : Architecture} {l : Layout}

theorem exists_ofArchitecture (h : arch.validate = .ok ()) :
    ofArchitecture arch = .ok (ofDepths arch) := by
  rw [ofArchitecture, h]
  rfl

/-- The operands are whole bytes, and no address or stride could do with fewer bits. -/
structure Tight (arch : Architecture) (l : Layout) : Prop where
  op0 : Rounds l.op0Bits (l.op0AddressBits + l.op0StrideBits)
  op1 : Rounds l.op1Bits (l.op1AddressBits + l.op1StrideBits)
  op2 : Rounds l.op2Bits l.op2AddressBits
  op0Address : IsLeast
    {bits | arch.localDepth.toNat ≤ 2 ^ bits ∧ arch.accumulatorDepth.toNat ≤ 2 ^ bits}
    l.op0AddressBits
  op0Stride : IsLeast {bits | arch.stride0Depth.toNat ≤ 2 ^ bits} l.op0StrideBits
  op1Address : IsLeast {bits | ∀ space, (arch.depth space).toNat ≤ 2 ^ bits} l.op1AddressBits
  op1Stride : IsLeast {bits | arch.stride1Depth.toNat ≤ 2 ^ bits} l.op1StrideBits
  op2Address : IsLeast
    {bits | arch.localDepth.toNat ≤ 2 ^ bits ∧ arch.accumulatorDepth.toNat ≤ 2 ^ bits}
    l.op2AddressBits

theorem isLeast_bitsFor (depth : Nat) : IsLeast {bits | depth ≤ 2 ^ bits} (bitsFor depth) :=
  ⟨bitsFor_le_iff.mp (Nat.le_refl _), fun _ h => bitsFor_le h⟩

theorem tight_ofDepths (arch : Architecture) : Tight arch (ofDepths arch) := by
  have hinner : IsLeast
      {bits | arch.localDepth.toNat ≤ 2 ^ bits ∧ arch.accumulatorDepth.toNat ≤ 2 ^ bits}
      (max (bitsFor arch.localDepth.toNat) (bitsFor arch.accumulatorDepth.toNat)) := by
    simp only [← bitsFor_le_iff]
    exact ⟨⟨Nat.le_max_left .., Nat.le_max_right ..⟩, fun _ h => Nat.max_le.mpr h⟩
  refine ⟨rounds_roundToByte _, rounds_roundToByte _, rounds_roundToByte _, hinner,
    isLeast_bitsFor _, ?_, isLeast_bitsFor _, hinner⟩
  simp only [← bitsFor_le_iff]
  constructor
  · intro space
    cases space <;> simp only [ofDepths] <;> omega
  · intro bits h
    have hlocal := h .scratchpad
    have hacc := h .accumulator
    have h0 := h .dram0
    have h1 := h .dram1
    simp only [ofDepths]
    omega

end Layout

namespace Instruction

variable {arch : Architecture} {l : Layout}

theorem exists_encode (hl : Layout.ofArchitecture arch = .ok l) {instr : Instruction}
    (h : instr.InRange arch) : ∃ word, instr.encode l = .ok word := by
  obtain ⟨_, rfl⟩ := Layout.ofArchitecture_eq_ok hl
  have ht := Layout.tight_ofDepths arch
  have hlocal := ht.op0Address.1.1
  have hsize : max arch.localDepth.toNat arch.accumulatorDepth.toNat ≤ 2 ^ _ :=
    Nat.max_le.mpr ht.op2Address.1
  have hstride0 := ht.op0Stride.1
  have hstride1 := ht.op1Stride.1
  cases instr with
  | noOp =>
    have ho : Opcode.noOp ≠ .configure := by decide
    exact exists_encode_of_fit hl ho (List.forall_mem_nil _)
  | matMul accumulate zeroes scratchpad accumulator size =>
    obtain ⟨⟨hs, hs'⟩, ⟨ha, ha'⟩, hn⟩ := h
    have ho : Opcode.matMul ≠ .configure := by decide
    have houter := ht.op1Address.1 .accumulator
    exact exists_encode_of_fit hl ho (fit_operands ho (Nat.lt_of_lt_of_le hs hlocal)
      (Nat.lt_of_lt_of_le hs' hstride0) (Nat.lt_of_lt_of_le ha houter)
      (Nat.lt_of_lt_of_le ha' hstride1) (Nat.lt_of_lt_of_le hn hsize))
  | dataMove flag scratchpad address size =>
    obtain ⟨⟨hs, hs'⟩, ⟨ha, ha'⟩, hn⟩ := h
    have houter := ht.op1Address.1 flag.remote
    exact exists_encode_dataMove hl (Nat.lt_of_lt_of_le hs hlocal)
      (Nat.lt_of_lt_of_le hs' hstride0) (Nat.lt_of_lt_of_le ha houter)
      (Nat.lt_of_lt_of_le ha' hstride1) (Nat.lt_of_lt_of_le hn hsize)
  | loadWeights zeroes scratchpad size =>
    obtain ⟨⟨hs, hs'⟩, hn⟩ := h
    have ho : Opcode.loadWeights ≠ .configure := by decide
    have houter := ht.op1Address.1 .scratchpad
    refine exists_encode_of_fit hl ho ?_
    simp only [operands, StridedAddress.op0, List.cons_append, List.nil_append,
      List.forall_mem_cons]
    exact ⟨Nat.lt_of_lt_of_le hs hlocal, Nat.lt_of_lt_of_le hs' hstride0,
      Nat.lt_of_lt_of_le hn houter, List.forall_mem_nil _⟩
  | configure register value => exact h.elim

end Instruction

/-- Every architecture that is accepted has a layout that is no wider than the rows of its memories
need, and every instruction that stays within them has a word, which is read as that instruction. -/
theorem rows_carried {arch : Architecture} (h : arch.validate = .ok ()) :
    ∃ l, Layout.ofArchitecture arch = .ok l ∧ Layout.Tight arch l ∧
      ∀ instr : Instruction, instr.InRange arch →
        ∃ word, instr.encode l = .ok word ∧ decode l word = .ok instr := by
  have hl := Layout.exists_ofArchitecture h
  refine ⟨_, hl, Layout.tight_ofDepths arch, fun instr hrows => ?_⟩
  obtain ⟨word, hword⟩ := Instruction.exists_encode hl hrows
  exact ⟨word, hword, (Instruction.decode_encode hword).2⟩

/-- The last row of the longest memory and the largest step, from a scratchpad with a single row. -/
theorem rows_carried_lopsided :
    lopsided.validate = .ok () ∧ ∃ l, Layout.ofArchitecture lopsided = .ok l ∧
      Layout.Tight lopsided l ∧
      ∃ word, (Instruction.dataMove .dram0ToLocal (.unit 0) ⟨0xFFFFFFFFFFFFFFFE, 63⟩ 0).encode l =
          .ok word ∧
        decode l word = .ok (.dataMove .dram0ToLocal (.unit 0) ⟨0xFFFFFFFFFFFFFFFE, 63⟩ 0) := by
  have h : lopsided.validate = .ok () := rfl
  obtain ⟨l, hl, ht, hencode⟩ := rows_carried h
  refine ⟨h, l, hl, ht, hencode _ ?_⟩
  exact ⟨⟨by decide, by decide⟩, ⟨by decide, by decide⟩, by decide⟩

section Configure

variable {arch : Architecture} {l : Layout}

/-- What Configure asks of its operands: that each is a field, that the register code finds at least
one byte, and that the value fits. -/
def Layout.Takes (l : Layout) (register : Register) (value : UInt64) : Prop :=
  l.op0Bits ≤ 64 ∧ l.op1Bits ≤ 64 ∧ (l.op0Bits = 0 → register.code = 0) ∧
    value.toNat < 2 ^ l.op1Bits

theorem Register.code_lt_iff (register : Register) {bits : Nat} (h : bits % 8 = 0) :
    register.code < 2 ^ bits ↔ (bits = 0 → register.code = 0) := by
  have hcode : register.code < 2 ^ 8 := by cases register <;> decide
  by_cases h0 : bits = 0
  · simp [h0]
  · have hle : 2 ^ 8 ≤ 2 ^ bits := Nat.pow_le_pow_right (by decide) (by omega)
    exact iff_of_true (Nat.lt_of_lt_of_le hcode hle) fun hz => absurd hz h0

theorem Layout.op0Bits_eq_zero_iff (arch : Architecture) :
    (ofDepths arch).op0Bits = 0 ↔
      arch.localDepth ≤ 1 ∧ arch.accumulatorDepth ≤ 1 ∧ arch.stride0Depth ≤ 1 := by
  have hone : ∀ depth : UInt64, depth ≤ 1 ↔ bitsFor depth.toNat = 0 :=
    fun _ => bitsFor_eq_zero_iff.symm
  rw [hone, hone, hone]
  simp only [ofDepths, Architecture.depth, roundToByte]
  omega

theorem Instruction.encode_configure_iff (hl : Layout.ofArchitecture arch = .ok l)
    {register : Register} {value : UInt64} :
    (∃ word, (configure register value).encode l = .ok word) ↔ l.Takes register value := by
  have hwhole := Layout.whole_ofArchitecture hl
  rw [encode_eq_ok_iff hl, Layout.Takes, ← register.code_lt_iff hwhole.bytes.1]
  simp [opcode, operands, blank, lowFields, FieldSet.width_cons, and_assoc]

/-- A register and a value have a word when their operands can take them, and a stream of settings
has words when every setting has one. -/
theorem settings_carried (hl : Layout.ofArchitecture arch = .ok l) :
    (l.op0Bits = 0 ↔
      arch.localDepth ≤ 1 ∧ arch.accumulatorDepth ≤ 1 ∧ arch.stride0Depth ≤ 1) ∧
    (∀ (register : Register) (value : UInt64),
      (∃ word, (Instruction.configure register value).encode l = .ok word) ↔
        l.Takes register value) ∧
    ∀ settings : List (Register × UInt64),
      (∃ stream, assemble l (settings.map fun s => .configure s.1 s.2) = .ok stream) ↔
        ∀ s ∈ settings, l.Takes s.1 s.2 := by
  refine ⟨?_, fun _ _ => Instruction.encode_configure_iff hl, fun settings => ?_⟩
  · obtain ⟨_, rfl⟩ := Layout.ofArchitecture_eq_ok hl
    exact Layout.op0Bits_eq_zero_iff arch
  · rw [assemble_eq_ok_iff, List.forall_mem_map]
    exact forall₂_congr fun _ _ => Instruction.encode_configure_iff hl

/-- On the board every register can be set, to at most 24 bits. -/
theorem settings_carried_pynqZ1 :
    Layout.ofArchitecture .pynqZ1 = .ok (.ofDepths .pynqZ1) ∧
      (∃ stream, assemble (.ofDepths .pynqZ1)
        (Register.all.map fun register => .configure register 0xFFFFFF) = .ok stream) ∧
      ¬ ∃ word, (Instruction.configure .timeout 0x1000000).encode (.ofDepths .pynqZ1) =
        .ok word := by
  have hl : Layout.ofArchitecture .pynqZ1 = .ok (.ofDepths .pynqZ1) := rfl
  obtain ⟨_, hword, hstream⟩ := settings_carried hl
  refine ⟨hl, ?_, fun h => absurd ((hword _ _).mp h).2.2.2 (by decide)⟩
  have hall := (hstream (Register.all.map fun register => (register, 0xFFFFFF))).mpr (by
    rw [List.forall_mem_map]
    have hvalue : (0xFFFFFF : UInt64).toNat < 2 ^ (Layout.ofDepths .pynqZ1).op1Bits := by decide
    exact fun _ _ => ⟨by decide, by decide, fun h => absurd h (by decide), hvalue⟩)
  rwa [List.map_map] at hall

/-- A unit with one row beside the array, whose operand 0 has no bits. -/
def singleRow : Architecture :=
  { Architecture.pynqZ1 with localDepth := 1, accumulatorDepth := 1, stride0Depth := 1 }

/-- A unit whose operand 1 has 88 bits, 63 of them for the step. -/
def longStep : Architecture :=
  { Architecture.pynqZ1 with stride1Depth := 0x8000000000000000 }

/-- The single row leaves no place for the register, and the long step makes the place of the value
wider than a field. -/
theorem settings_refused :
    ¬ (∀ (l : Layout) (register : Register) (value : UInt64),
      Layout.ofArchitecture singleRow = .ok l → value.toNat < 2 ^ min l.op1Bits 64 →
        ∃ word, (Instruction.configure register value).encode l = .ok word) ∧
    ¬ ∀ (l : Layout) (register : Register) (value : UInt64),
      Layout.ofArchitecture longStep = .ok l → value.toNat < 2 ^ min l.op1Bits 64 →
        ∃ word, (Instruction.configure register value).encode l = .ok word := by
  refine ⟨fun h => ?_, fun h => ?_⟩
  · obtain ⟨word, hword⟩ := h _ .timeout 100 rfl (by decide)
    cases hword
  · obtain ⟨word, hword⟩ := h _ .timeout 100 rfl (by decide)
    cases hword

end Configure

end Tcu

end TensorUnit
