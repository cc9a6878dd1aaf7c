import TensorUnit.Proofs.Packing

namespace TensorUnit

namespace FieldSet

inductive Edit
  | push (name : String) (width value : Nat)
  | set (name : String) (value : Nat)
  deriving DecidableEq, Repr

/-- A call that fails leaves the set as it is. -/
def Edit.apply (fields : FieldSet) (edit : Edit) : FieldSet :=
  let edited := match edit with
    | .push name width value => fields.push name width value
    | .set name value => fields.set name value
  match edited with
  | .ok fields' => fields'
  | .error _ => fields

def ofEdits (edits : List Edit) : FieldSet :=
  edits.foldl Edit.apply []

def Proper (fields : FieldSet) : Prop :=
  ∀ f ∈ fields, f.width ≤ Field.maxWidth ∧ f.Fits

theorem Proper.fits {fields : FieldSet} (h : fields.Proper) : ∀ f ∈ fields, f.Fits :=
  fun f hf => (h f hf).2

theorem width_le_of_skeleton {a b : FieldSet} {bits : Nat} (h : a.skeleton = b.skeleton)
    (hb : ∀ f ∈ b, f.width ≤ bits) : ∀ f ∈ a, f.width ≤ bits := by
  intro f hf
  have hm : (f.name, f.width) ∈ b.skeleton := by
    rw [← h]
    exact List.mem_map_of_mem hf
  obtain ⟨g, hg, he⟩ := List.mem_map.mp hm
  rw [← (Prod.mk.inj he).2]
  exact hb g hg

theorem Proper.push {fields fields' : FieldSet} {name : String} {width value : Nat}
    (hp : fields.Proper) (h : fields.push name width value = .ok fields') : fields'.Proper := by
  rw [FieldSet.push] at h
  split at h
  · cases h
  · rename_i hw
    split at h
    · rename_i hf
      cases h
      intro f hm
      rcases List.mem_append.mp hm with hm | hm
      · exact hp f hm
      · rw [List.mem_singleton.mp hm]
        exact ⟨Nat.not_lt.mp hw, hf⟩
    · cases h

theorem Proper.set {fields fields' : FieldSet} {name : String} {value : Nat}
    (hp : fields.Proper) (h : fields.set name value = .ok fields') : fields'.Proper := by
  obtain ⟨hs, hf, -⟩ := set_spec h
  have hw := width_le_of_skeleton hs fun f hm => (hp f hm).1
  exact fun f hm => ⟨hw f hm, hf hp.fits f hm⟩

theorem Proper.apply {fields : FieldSet} (hp : fields.Proper) (edit : Edit) :
    (edit.apply fields).Proper := by
  cases edit with
  | push name width value =>
    cases h : fields.push name width value with
    | ok fields' => simpa [Edit.apply, h] using hp.push h
    | error e => simpa [Edit.apply, h] using hp
  | set name value =>
    cases h : fields.set name value with
    | ok fields' => simpa [Edit.apply, h] using hp.set h
    | error e => simpa [Edit.apply, h] using hp

theorem proper_ofEdits (edits : List Edit) : (ofEdits edits).Proper := by
  suffices h : ∀ fields : FieldSet, fields.Proper → (edits.foldl Edit.apply fields).Proper by
    apply h
    simp [Proper]
  induction edits with
  | nil => exact fun _ hp => hp
  | cons edit edits ih => exact fun fields hp => ih _ (hp.apply edit)

end FieldSet

namespace Word

def clearAbove : Nat → List UInt8 → List UInt8
  | _, [] => []
  | bits, b :: bs => UInt8.ofNat (b.toNat % 2 ^ bits) :: clearAbove (bits - 8) bs

@[simp] theorem length_clearAbove (bits : Nat) (word : List UInt8) :
    (clearAbove bits word).length = word.length := by
  induction word generalizing bits with
  | nil => rfl
  | cons b bs ih => simp [clearAbove, ih]

theorem toNat_clearAbove (bits : Nat) (word : List UInt8) :
    Bytes.toNat (clearAbove bits word) = Bytes.toNat word % 2 ^ bits := by
  induction word generalizing bits with
  | nil => simp [clearAbove, Bytes.toNat]
  | cons b bs ih =>
    have hb := UInt8.toNat_lt b
    have hm : (UInt8.ofNat (b.toNat % 2 ^ bits)).toNat = b.toNat % 2 ^ bits := by
      rw [UInt8.toNat_ofNat']
      exact Nat.mod_eq_of_lt (Nat.lt_of_le_of_lt (Nat.mod_le ..) hb)
    rw [clearAbove, Bytes.toNat, Bytes.toNat, ih, hm]
    by_cases h8 : 8 ≤ bits
    · have hp : 2 ^ bits = 256 * 2 ^ (bits - 8) := by
        rw [show (256 : Nat) = 2 ^ 8 from rfl, ← Nat.pow_add, Nat.add_sub_cancel' h8]
      have hle : 256 ≤ 2 ^ bits := Nat.pow_le_pow_right (by decide : 0 < 2) h8
      have hq : (b.toNat + 256 * Bytes.toNat bs) / 256 = Bytes.toNat bs := by omega
      have hr : (b.toNat + 256 * Bytes.toNat bs) % 256 = b.toNat := by omega
      rw [Nat.mod_eq_of_lt (Nat.lt_of_lt_of_le hb hle), hp, Nat.mod_mul, hq, hr]
    · -- The word ends inside this byte: nothing above it is left.
      obtain ⟨c, hc⟩ : 2 ^ bits ∣ 256 := Nat.pow_dvd_pow 2 (by omega : bits ≤ 8)
      rw [show bits - 8 = 0 by omega, Nat.pow_zero, Nat.mod_one, Nat.mul_zero, Nat.add_zero, hc,
        Nat.mul_assoc, Nat.add_mul_mod_self_left]

theorem unpackFrom_overflow {word : List UInt8} {template : FieldSet} (offset : Nat)
    (done : FieldSet) (hw : ∀ f ∈ template, f.width ≤ Field.maxWidth)
    (hl : offset + template.totalBits < 2 ^ 32) (ho : offset ≤ 8 * word.length)
    (hb : 8 * word.length < offset + template.totalBits) :
    ∃ stop, unpackFrom word offset done template =
      .error (.wordOverflow stop (8 * word.length)) := by
  induction template generalizing offset done with
  | nil =>
    rw [FieldSet.totalBits_nil] at hb
    omega
  | cons f fs ih =>
    rw [FieldSet.totalBits_cons] at hl hb
    have hf := hw f (List.mem_cons_self ..)
    by_cases hstop : 8 * word.length < offset + f.width
    · have he : extract word offset f.width =
          .error (.wordOverflow (offset + f.width) (8 * word.length)) := by
        rw [extract, if_neg (by omega), if_neg (by omega), if_pos hstop]
      refine ⟨offset + f.width, ?_⟩
      rw [unpackFrom, he]
      rfl
    · rw [unpackFrom_cons fs done hf (by omega) (by omega)]
      exact ih _ _ (fun g hg => hw g (List.mem_cons_of_mem _ hg)) (by omega) (by omega) (by omega)

/-- What a template of its shape reads is packed to the word again, without the bits above. -/
theorem pack_unpack {template : FieldSet} {wordBits : Nat} {word : List UInt8}
    (hw : ∀ f ∈ template, f.width ≤ Field.maxWidth) (hl : template.totalBits < 2 ^ 32)
    (h0 : wordBits ≠ 0) (hb : template.totalBits ≤ wordBits) (hn : 8 * word.length = wordBits) :
    ∃ fields, unpack word template = .ok fields ∧ fields.skeleton = template.skeleton ∧
      fields.pack wordBits = .ok (clearAbove template.totalBits word) := by
  have hs := FieldSet.skeleton_fill template (Bytes.toNat word)
  have ht := FieldSet.totalBits_eq_of_skeleton hs
  have hf := FieldSet.fits_fill template (Bytes.toNat word)
  refine ⟨_, unpack_eq_ok hw hl (by omega), hs, ?_⟩
  rw [FieldSet.pack_eq_ok (by omega) (by omega) hf, FieldSet.place_fill, ← toNat_clearAbove,
    show wordBits / 8 = (clearAbove template.totalBits word).length by
      rw [length_clearAbove]; omega,
    Bytes.ofNat_toNat]

/-- Packing and unpacking are inverse, for every set that pushes and sets build and every template
with its names and widths. -/
theorem unpack_pack_inverse (edits : List FieldSet.Edit) (template : FieldSet)
    (hs : template.skeleton = (FieldSet.ofEdits edits).skeleton)
    (hl : (FieldSet.ofEdits edits).totalBits < 2 ^ 32) :
    (∀ wordBits, 0 < wordBits → wordBits % 8 = 0 →
      (FieldSet.ofEdits edits).totalBits ≤ wordBits →
        (∃ word, (FieldSet.ofEdits edits).pack wordBits = .ok word ∧
          8 * word.length = wordBits ∧
          unpack word template = .ok (FieldSet.ofEdits edits)) ∧
        ∀ word : List UInt8, 8 * word.length = wordBits →
          ∃ fields, unpack word template = .ok fields ∧ fields.skeleton = template.skeleton ∧
            fields.pack wordBits = .ok (clearAbove template.totalBits word)) ∧
      ∀ word : List UInt8, 8 * word.length < template.totalBits →
        ∃ stop, unpack word template = .error (.wordOverflow stop (8 * word.length)) := by
  have hp := FieldSet.proper_ofEdits edits
  have hw := FieldSet.width_le_of_skeleton hs fun f hf => (hp f hf).1
  have ht := FieldSet.totalBits_eq_of_skeleton hs
  constructor
  · intro wordBits h0 h8 hb
    constructor
    · have hpack := FieldSet.pack_eq_ok ⟨Nat.ne_of_gt h0, h8⟩ hb hp.fits
      refine ⟨_, hpack, ?_, unpack_pack hs hp.fits hw (by omega) hpack⟩
      rw [Bytes.length_ofNat]
      omega
    · intro word hn
      exact pack_unpack hw (by omega) (Nat.ne_of_gt h0) (by omega) hn
  · intro word hn
    exact unpackFrom_overflow 0 [] hw (by omega) (Nat.zero_le _) (by omega)

/-- A name twice, a field without bits, a full one across nine bytes, and a call that fails. -/
theorem unpack_pack_inverse_straddling :
    let edits : List FieldSet.Edit :=
      [.push "a" 3 5, .push "none" 0 0, .push "a" 64 7, .set "a" 8, .set "a" 6]
    let template : FieldSet := [⟨"a", 3, 1⟩, ⟨"none", 0, 9⟩, ⟨"a", 64, 0⟩]
    let full : List UInt8 := List.replicate 9 255
    FieldSet.ofEdits edits = [⟨"a", 3, 6⟩, ⟨"none", 0, 0⟩, ⟨"a", 64, 7⟩] ∧
      (∃ word, (FieldSet.ofEdits edits).pack 72 = .ok word ∧ 8 * word.length = 72 ∧
        unpack word template = .ok (FieldSet.ofEdits edits)) ∧
      (∃ fields, unpack full template = .ok fields ∧ fields.skeleton = template.skeleton ∧
        fields.pack 72 = .ok [255, 255, 255, 255, 255, 255, 255, 255, 7]) ∧
      ∃ stop, unpack (full.take 8) template = .error (.wordOverflow stop 64) := by
  intro edits template full
  have hs : template.skeleton = (FieldSet.ofEdits edits).skeleton := by decide
  have hl : (FieldSet.ofEdits edits).totalBits < 2 ^ 32 := by decide
  have h := unpack_pack_inverse edits template hs hl
  have hword := h.1 72 (by decide) (by decide) (by decide)
  have hc : clearAbove template.totalBits full = [255, 255, 255, 255, 255, 255, 255, 255, 7] := by
    decide
  have hback := hword.2 full (by decide)
  rw [hc] at hback
  exact ⟨by decide, hword.1, hback, h.2 (full.take 8) (by decide)⟩

end Word

end TensorUnit
