import Mathlib.Algebra.BigOperators.Fin
import TensorUnit.Proofs.Unpacking

namespace TensorUnit

namespace FieldSet

/-- The number of a set is the sum of its values, each at its own position. -/
theorem place_eq_sum (fields : FieldSet) :
    fields.place = ∑ i : Fin fields.length, fields[i].value * 2 ^ totalBits (fields.take i) := by
  induction fields with
  | nil => rfl
  | cons f fs ih =>
    have hsum : ∑ i : Fin (f :: fs).length, (f :: fs)[i].value * 2 ^ totalBits ((f :: fs).take i) =
        f.value * 2 ^ totalBits [] +
          ∑ i : Fin fs.length, fs[i].value * 2 ^ totalBits (f :: fs.take i) :=
      Fin.sum_univ_succ _
    have htail : ∀ i : Fin fs.length, fs[i].value * 2 ^ totalBits (f :: fs.take i) =
        2 ^ f.width * (fs[i].value * 2 ^ totalBits (fs.take i)) := by
      intro i
      rw [totalBits_cons, Nat.pow_add, Nat.mul_left_comm]
    rw [hsum, Finset.sum_congr rfl fun i _ => htail i, ← Finset.mul_sum, ← ih, place]
    exact congrArg (· + _) (Nat.mul_one _).symm

theorem offset?_append {before : FieldSet} {f : Field} (after : FieldSet)
    (h : ∀ g ∈ before, g.name ≠ f.name) :
    offset? (before ++ f :: after) f.name = some before.totalBits := by
  induction before with
  | nil => simp [offset?, totalBits]
  | cons g gs ih =>
    rw [List.cons_append, offset?, if_neg (h g (List.mem_cons_self ..)),
      ih fun g hg => h g (List.mem_cons_of_mem _ hg), totalBits_cons]
    rfl

theorem offset?_name {fields : FieldSet} {i : Fin fields.length}
    (h : ∀ j < i, fields[j].name ≠ fields[i].name) :
    fields.offset? fields[i].name = some (totalBits (fields.take i)) := by
  have hsplit : fields = fields.take i ++ fields[i] :: fields.drop (i + 1) := by
    simp
  have hfirst : ∀ g ∈ fields.take i, g.name ≠ fields[i].name := by
    intro g hg
    obtain ⟨j, hj, rfl⟩ := List.mem_take_iff_getElem.mp hg
    exact h ⟨j, by omega⟩ (Fin.mk_lt_of_lt_val (by omega))
  exact (congrArg (offset? · fields[i].name) hsplit).trans (offset?_append _ hfirst)

theorem pack_eq_error {fields : FieldSet} {wordBits : Nat} {e : EncodeError}
    (hf : ∀ f ∈ fields, f.Fits) (h : fields.pack wordBits = .error e) :
    (e = .invalidWordSize wordBits ∧ (wordBits = 0 ∨ wordBits % 8 ≠ 0)) ∨
      (e = .wordOverflow fields.totalBits wordBits ∧ wordBits < fields.totalBits) := by
  by_cases hw : wordBits = 0 ∨ wordBits % 8 ≠ 0
  · rw [pack, if_pos hw] at h
    cases h
    exact .inl ⟨rfl, hw⟩
  · by_cases ht : wordBits < fields.totalBits
    · rw [pack, if_neg hw, if_pos ht] at h
      cases h
      exact .inr ⟨rfl, ht⟩
    · rw [pack_eq_ok (by omega) (by omega) hf] at h
      cases h

theorem exists_pack_error_iff {fields : FieldSet} (hf : ∀ f ∈ fields, f.Fits) (wordBits : Nat) :
    (∃ e, fields.pack wordBits = .error e) ↔
      wordBits = 0 ∨ wordBits % 8 ≠ 0 ∨ wordBits < fields.totalBits := by
  constructor
  · rintro ⟨e, h⟩
    rcases pack_eq_error hf h with ⟨-, hw | hw⟩ | ⟨-, ht⟩
    · exact .inl hw
    · exact .inr (.inl hw)
    · exact .inr (.inr ht)
  · intro h
    by_cases hw : wordBits = 0 ∨ wordBits % 8 ≠ 0
    · exact ⟨_, if_pos hw⟩
    · exact ⟨_, (if_neg hw).trans (if_pos (by omega))⟩

/-- What packing does with every set that pushes and sets build. It fails at the size of the word
alone, and otherwise adds up the values at their positions. -/
theorem pack_positional (edits : List Edit) (wordBits : Nat) :
    let fields := ofEdits edits
    (∀ f ∈ fields, f.value < 2 ^ f.width) ∧
    (∀ name value width, fields.pack wordBits ≠ .error (.valueOutOfRange name value width)) ∧
    ((∃ e, fields.pack wordBits = .error e) ↔
      wordBits = 0 ∨ wordBits % 8 ≠ 0 ∨ wordBits < fields.totalBits) ∧
    (∀ word, fields.pack wordBits = .ok word → word.length = wordBits / 8 ∧
      Bytes.toNat word =
        ∑ i : Fin fields.length, fields[i].value * 2 ^ totalBits (fields.take i)) ∧
    ∀ i : Fin fields.length, (∀ j < i, fields[j].name ≠ fields[i].name) →
      fields.offset? fields[i].name = some (totalBits (fields.take i)) := by
  intro fields
  have hf : ∀ f ∈ fields, f.Fits := (proper_ofEdits edits).fits
  refine ⟨hf, ?_, exists_pack_error_iff hf wordBits, ?_, fun i hi => offset?_name hi⟩
  · intro name value width h
    rcases pack_eq_error hf h with ⟨he, -⟩ | ⟨he, -⟩ <;> cases he
  · intro word h
    obtain ⟨hlength, -, hvalue⟩ := toNat_pack hf h
    exact ⟨hlength, hvalue.trans (place_eq_sum fields)⟩

/-- A full field behind one that ends within a byte, and one of the same name behind both. -/
theorem pack_positional_straddling :
    let fields := ofEdits [.push "a" 3 5, .push "b" 64 0, .push "a" 4 9, .set "b" (2 ^ 64 - 1)]
    (∃ word, fields.pack 72 = .ok word ∧ word.length = 9 ∧
      Bytes.toNat word = ∑ i : Fin fields.length, fields[i].value * 2 ^ totalBits (fields.take i)) ∧
    (∃ e, fields.pack 64 = .error e) ∧ fields.offset? "b" = some 3 := by
  intro fields
  have hwide := pack_positional
    [.push "a" 3 5, .push "b" 64 0, .push "a" 4 9, .set "b" (2 ^ 64 - 1)] 72
  have hnarrow := pack_positional
    [.push "a" 3 5, .push "b" 64 0, .push "a" 4 9, .set "b" (2 ^ 64 - 1)] 64
  obtain ⟨word, hword⟩ : ∃ word, fields.pack 72 = .ok word := ⟨_, rfl⟩
  refine ⟨⟨word, hword, hwide.2.2.2.1 word hword⟩, hnarrow.2.2.1.mpr (by decide),
    hwide.2.2.2.2 ⟨1, by decide⟩ (by decide)⟩

end FieldSet

namespace Word

section Extract

variable {word : List UInt8} {offset width : Nat}

theorem extract_wide (h : Field.maxWidth < width) :
    extract word offset width = .error (.invalidWidth s!"bits {offset}.." width) :=
  if_pos h

theorem extract_far (hw : width ≤ Field.maxWidth) (hl : 2 ^ 32 ≤ offset + width) :
    extract word offset width = .error (.positionOverflow offset width) := by
  rw [extract, if_neg (Nat.not_lt.mpr hw), if_pos hl]

theorem extract_short (hw : width ≤ Field.maxWidth) (hl : offset + width < 2 ^ 32)
    (hb : 8 * word.length < offset + width) :
    extract word offset width = .error (.wordOverflow (offset + width) (8 * word.length)) := by
  rw [extract, if_neg (Nat.not_lt.mpr hw), if_neg (Nat.not_le.mpr hl), if_pos hb]

end Extract

/-- What reading a window does with every word and every position. A window that ends at a 32-bit
position is refused where the word is shorter, and read exactly where it is not: its bytes are all
there, nine of them at most. One that ends at no such position is not even refused. -/
theorem extract_exact (word : List UInt8) (offset width : Nat) :
    ((∃ field bits, extract word offset width = .error (.invalidWidth field bits)) ↔ 64 < width) ∧
    (width ≤ 64 → offset + width < 2 ^ 32 →
      ((∃ bits wordBits, extract word offset width = .error (.wordOverflow bits wordBits)) ↔
        8 * word.length < offset + width) ∧
      (offset + width ≤ 8 * word.length →
        extract word offset width = .ok (Bytes.toNat word / 2 ^ offset % 2 ^ width) ∧
        (0 < width → ∃ window,
          Bytes.slice? word (offset / 8) ((offset + width - 1) / 8) = some window ∧
            window.length ≤ 9))) ∧
    (extract word offset width = .error (.positionOverflow offset width) ↔
      width ≤ 64 ∧ 2 ^ 32 ≤ offset + width) := by
  -- Each of the four outcomes has a condition of its own, and these exclude each other.
  rcases Nat.lt_or_ge 64 width with hw | hw
  · rw [extract_wide hw]
    exact ⟨iff_of_true ⟨_, _, rfl⟩ hw, fun h => absurd hw (Nat.not_lt.mpr h),
      iff_of_false nofun fun h => absurd hw (Nat.not_lt.mpr h.1)⟩
  rcases Nat.lt_or_ge (offset + width) (2 ^ 32) with hl | hl
  · rcases Nat.lt_or_ge (8 * word.length) (offset + width) with hb | hb
    · rw [extract_short hw hl hb]
      refine ⟨iff_of_false nofun (Nat.not_lt.mpr hw), fun _ _ => ⟨iff_of_true ⟨_, _, rfl⟩ hb, ?_⟩,
        iff_of_false nofun fun h => absurd hl (Nat.not_lt.mpr h.2)⟩
      exact fun h => absurd hb (Nat.not_lt.mpr h)
    · rw [extract_eq_ok hw hl hb]
      refine ⟨iff_of_false nofun (Nat.not_lt.mpr hw),
        fun _ _ => ⟨iff_of_false nofun (Nat.not_lt.mpr hb), fun _ => ⟨rfl, fun h0 => ?_⟩⟩,
        iff_of_false nofun fun h => absurd hl (Nat.not_lt.mpr h.2)⟩
      refine ⟨_, slice?_window h0 hb, ?_⟩
      rw [List.length_take]
      omega
  · rw [extract_far hw hl]
    exact ⟨iff_of_false nofun (Nat.not_lt.mpr hw), fun _ h => absurd h (Nat.not_lt.mpr hl),
      iff_of_true rfl ⟨hw, hl⟩⟩

/-- The last bit of a word that has sixteen, and the one behind it. -/
theorem extract_exact_sixteen :
    extract [0x34, 0x92] 15 1 = .ok (Bytes.toNat [0x34, 0x92] / 2 ^ 15 % 2 ^ 1) ∧
      (∃ window, Bytes.slice? [0x34, 0x92] 1 1 = some window ∧ window.length ≤ 9) ∧
      ∃ bits wordBits, extract [0x34, 0x92] 16 1 = .error (.wordOverflow bits wordBits) := by
  obtain ⟨hread, hwindow⟩ :=
    ((extract_exact [0x34, 0x92] 15 1).2.1 (by decide) (by decide)).2 (by decide)
  exact ⟨hread, hwindow (by decide),
    ((extract_exact [0x34, 0x92] 16 1).2.1 (by decide) (by decide)).1.mpr (by decide)⟩

/-- A bit far behind the only byte is not refused as such. -/
theorem extract_unrefused :
    8 * [(0xff : UInt8)].length < 4294967295 + 1 ∧
      ¬ ∃ bits wordBits, extract [0xff] 4294967295 1 = .error (.wordOverflow bits wordBits) := by
  refine ⟨by decide, ?_⟩
  rintro ⟨bits, wordBits, h⟩
  rw [extract_far (by decide) (by decide)] at h
  cases h

end Word

end TensorUnit
