import TensorUnit.DecodeError
import TensorUnit.Proofs.Stamping

namespace TensorUnit

namespace Bytes

theorem toNat_drop (bytes : List UInt8) (k : Nat) :
    toNat (bytes.drop k) = toNat bytes / 256 ^ k := by
  induction k generalizing bytes with
  | zero => simp
  | succ k ih =>
    cases bytes with
    | nil => simp [toNat]
    | cons b bs =>
      have hb := UInt8.toNat_lt b
      have hq : (b.toNat + 256 * toNat bs) / 256 = toNat bs := by omega
      rw [List.drop_succ_cons, ih, toNat, Nat.pow_succ', ← Nat.div_div_eq_div_mul, hq]

theorem toNat_take (bytes : List UInt8) (k : Nat) :
    toNat (bytes.take k) = toNat bytes % 256 ^ k := by
  induction k generalizing bytes with
  | zero => simp [toNat, Nat.mod_one]
  | succ k ih =>
    cases bytes with
    | nil => simp [toNat]
    | cons b bs =>
      have hb := UInt8.toNat_lt b
      have hq : (b.toNat + 256 * toNat bs) / 256 = toNat bs := by omega
      have hr : (b.toNat + 256 * toNat bs) % 256 = b.toNat := by omega
      rw [List.take_succ_cons, toNat, ih, toNat, Nat.pow_succ', Nat.mod_mul, hq, hr]

theorem length_flatten_words {size : Nat} {ws : List (List UInt8)}
    (h : ∀ w ∈ ws, w.length = size) : ws.flatten.length = ws.length * size := by
  induction ws with
  | nil => simp
  | cons w ws ih =>
    have hw : w.length = size := h w (List.mem_cons_self ..)
    have hi := ih fun v hv => h v (List.mem_cons_of_mem _ hv)
    rw [List.flatten_cons, List.length_append, hw, hi, List.length_cons, Nat.succ_mul, Nat.add_comm]

theorem length_of_mem_words {size : Nat} {stream word : List UInt8} (h : word ∈ words size stream) :
    word.length = size := by
  rw [words, pieces_eq] at h
  obtain ⟨i, hi, rfl⟩ := List.mem_map.mp h
  have hle := Nat.mul_le_mul_right size (Nat.succ_le_of_lt (List.mem_range.mp hi))
  have hdiv := Nat.div_mul_le_self stream.length size
  rw [Nat.succ_mul] at hle
  rw [List.length_take, List.length_drop]
  omega

theorem words_flatten {size : Nat} (hs : 0 < size) {ws : List (List UInt8)}
    (h : ∀ w ∈ ws, w.length = size) : words size ws.flatten = ws := by
  rw [words, length_flatten_words h, Nat.mul_div_cancel _ hs, pieces_eq]
  induction ws with
  | nil => rfl
  | cons w ws ih =>
    have hw : w.length = size := h w (List.mem_cons_self ..)
    have hi := ih fun v hv => h v (List.mem_cons_of_mem _ hv)
    have hd : ∀ i, (w ++ ws.flatten).drop ((i + 1) * size) = ws.flatten.drop (i * size) := by
      intro i
      have he : (i + 1) * size = w.length + i * size := by rw [hw, Nat.succ_mul, Nat.add_comm]
      rw [he, List.drop_length_add_append]
    rw [List.length_cons, List.range_succ_eq_map, List.map_cons, List.map_map, List.flatten_cons]
    simp only [Function.comp_def, Nat.succ_eq_add_one, hd, hi]
    simp [← hw]

theorem words_append {size : Nat} (hs : 0 < size) {a b : List UInt8}
    (ha : a.length % size = 0) :
    words size (a ++ b) = words size a ++ words size b := by
  have hd := Nat.div_add_mod a.length size
  have hlen : a.length = a.length / size * size := by
    rw [Nat.mul_comm]
    omega
  have hcount : (a ++ b).length / size = a.length / size + b.length / size := by
    rw [List.length_append, hlen, Nat.mul_comm, Nat.mul_add_div hs, Nat.mul_div_cancel_left _ hs]
  rw [words, words, words, hcount, pieces_eq, pieces_eq,
    pieces_eq, List.range_add, List.map_append, List.map_map]
  congr 1
  · apply List.map_congr_left
    intro i hi
    have hi := List.mem_range.mp hi
    have hm : (i + 1) * size ≤ a.length := by
      rw [hlen]
      exact Nat.mul_le_mul_right size hi
    rw [Nat.succ_mul] at hm
    rw [List.drop_append_of_le_length (by omega), List.take_append_of_le_length]
    rw [List.length_drop]
    omega
  · apply List.map_congr_left
    intro i _
    simp only [Function.comp_apply, Nat.add_mul]
    rw [List.drop_append, List.drop_of_length_le (by omega), List.nil_append]
    congr 2
    omega

/-- A decoder of single words, up to a canonical form, decodes a stream of them in order. -/
theorem mapM_decode_words {ι ε δ : Type} {encode : ι → Except ε (List UInt8)}
    {decode : List UInt8 → Except δ ι} {f : ι → ι} {size : Nat} (hs : 0 < size)
    (h : ∀ i w, encode i = .ok w → w.length = size ∧ decode w = .ok (f i))
    {program : List ι} {ws : List (List UInt8)} (hw : program.mapM encode = .ok ws) :
    ws.flatten.length = program.length * size ∧
      (words size ws.flatten).mapM decode = .ok (program.map f) := by
  suffices hd : ws.length = program.length ∧ (∀ w ∈ ws, w.length = size) ∧
      ws.mapM decode = .ok (program.map f) by
    obtain ⟨hn, hl, hm⟩ := hd
    rw [words_flatten hs hl, length_flatten_words hl, hn]
    exact ⟨rfl, hm⟩
  induction program generalizing ws with
  | nil =>
    cases hw
    exact ⟨rfl, by simp, rfl⟩
  | cons i rest ih =>
    rw [List.mapM_cons] at hw
    cases he : encode i with
    | error e => rw [he] at hw; cases hw
    | ok w =>
      cases hr : rest.mapM encode with
      | error e => rw [he, hr] at hw; cases hw
      | ok vs =>
        rw [he, hr] at hw
        cases hw
        obtain ⟨hl, hd⟩ := h i w he
        obtain ⟨hn, ha, hm⟩ := ih hr
        refine ⟨by simp [hn], ?_, ?_⟩
        · intro v hv
          rcases List.mem_cons.mp hv with rfl | hv
          · exact hl
          · exact ha v hv
        · rw [List.mapM_cons, hd, hm]
          rfl

end Bytes

theorem lookup_of_mem {α β : Type} [BEq α] [LawfulBEq α] {values : List (α × β)}
    (hn : (values.map Prod.fst).Nodup) {v : α × β} (hv : v ∈ values) :
    values.lookup v.1 = some v.2 := by
  induction values with
  | nil => cases hv
  | cons u us ih =>
    rw [List.map_cons, List.nodup_cons] at hn
    rw [List.lookup_cons]
    rcases List.mem_cons.mp hv with rfl | hv
    · rw [beq_self_eq_true]
    · have hne : v.1 ≠ u.1 := fun he => hn.1 (List.mem_map.mpr ⟨v, hv, he⟩)
      rw [beq_eq_false_iff_ne.mpr hne, ih hn.2 hv]

theorem window_bits (n shift width : Nat) {bits : Nat} (h : shift + width ≤ bits) :
    n % 2 ^ bits / 2 ^ shift % 2 ^ width = n / 2 ^ shift % 2 ^ width := by
  obtain ⟨rest, rfl⟩ : ∃ rest, bits = shift + rest := ⟨bits - shift, by omega⟩
  rw [Nat.pow_add, Nat.mod_mul_right_div_self]
  exact Nat.mod_mod_of_dvd _ (Nat.pow_dvd_pow 2 (by omega))

namespace FieldSet

def skeleton (fields : FieldSet) : List (String × Nat) :=
  fields.map fun f => (f.name, f.width)

/-- The fields of a template with the values that a number gives them, from the lowest bits up. -/
def fill : FieldSet → Nat → FieldSet
  | [], _ => []
  | f :: fs, n => { f with value := n % 2 ^ f.width } :: fill fs (n / 2 ^ f.width)

@[simp] theorem totalBits_nil : totalBits [] = 0 := rfl

@[simp] theorem totalBits_cons (f : Field) (fs : FieldSet) :
    totalBits (f :: fs) = f.width + totalBits fs := by
  simp [totalBits]

theorem totalBits_append (a b : FieldSet) : totalBits (a ++ b) = totalBits a + totalBits b := by
  simp [totalBits]

theorem totalBits_le {fields : FieldSet} {bits : Nat} (h : ∀ f ∈ fields, f.width ≤ bits) :
    fields.totalBits ≤ fields.length * bits := by
  induction fields with
  | nil => exact Nat.zero_le _
  | cons f fs ih =>
    have hf := h f (List.mem_cons_self ..)
    have hs := ih fun g hg => h g (List.mem_cons_of_mem _ hg)
    rw [totalBits_cons, List.length_cons, Nat.succ_mul]
    omega

theorem totalBits_eq_of_skeleton {a b : FieldSet} (h : a.skeleton = b.skeleton) :
    a.totalBits = b.totalBits := by
  have hw := congrArg (List.map Prod.snd) h
  simp only [skeleton, List.map_map] at hw
  exact congrArg List.sum hw

theorem skeleton_fill (template : FieldSet) (n : Nat) :
    (template.fill n).skeleton = template.skeleton := by
  induction template generalizing n with
  | nil => rfl
  | cons f fs ih =>
    have h := ih (n / 2 ^ f.width)
    simp only [skeleton] at h
    simp only [fill, skeleton, List.map_cons, h]

theorem fits_fill (template : FieldSet) (n : Nat) : ∀ f ∈ template.fill n, f.Fits := by
  induction template generalizing n with
  | nil => simp [fill]
  | cons f fs ih =>
    intro g hg
    rcases List.mem_cons.mp hg with rfl | hg
    · exact Nat.mod_lt _ (Nat.two_pow_pos _)
    · exact ih _ g hg

theorem fill_place {template fields : FieldSet} (hs : template.skeleton = fields.skeleton)
    (hf : ∀ f ∈ fields, f.Fits) : template.fill fields.place = fields := by
  induction fields generalizing template with
  | nil =>
    rw [skeleton, skeleton, List.map_nil, List.map_eq_nil_iff] at hs
    rw [hs]
    rfl
  | cons f fs ih =>
    cases template with
    | nil => simp [skeleton] at hs
    | cons t ts =>
      simp only [skeleton, List.map_cons, List.cons.injEq, Prod.mk.injEq] at hs
      obtain ⟨⟨hn, hw⟩, hs⟩ := hs
      have hv : f.value < 2 ^ f.width := hf f (List.mem_cons_self ..)
      have hi := ih hs fun g hg => hf g (List.mem_cons_of_mem _ hg)
      have hq : (f.value + 2 ^ f.width * place fs) / 2 ^ f.width = place fs := by
        rw [Nat.add_mul_div_left _ _ (Nat.two_pow_pos _), Nat.div_eq_of_lt hv, Nat.zero_add]
      rw [place, fill, hw, hq, hi, Nat.add_mul_mod_self_left, Nat.mod_eq_of_lt hv, hn]

theorem place_fill (template : FieldSet) (n : Nat) :
    (template.fill n).place = n % 2 ^ template.totalBits := by
  induction template generalizing n with
  | nil => simp [fill, place, Nat.mod_one]
  | cons f fs ih => rw [fill, place, ih, totalBits_cons, Nat.pow_add, Nat.mod_mul]

theorem place_append (a b : FieldSet) :
    place (a ++ b) = place a + 2 ^ totalBits a * place b := by
  induction a with
  | nil => simp [place]
  | cons f fs ih =>
    rw [List.cons_append, place, ih, place, totalBits_cons, Nat.pow_add, Nat.mul_add, Nat.add_assoc,
      Nat.mul_assoc]

theorem window_place {before after : FieldSet} {f : Field}
    (h : ∀ g ∈ before ++ f :: after, g.Fits) :
    place (before ++ f :: after) / 2 ^ totalBits before % 2 ^ f.width = f.value := by
  have hb : place before < 2 ^ totalBits before :=
    place_lt before fun g hg => h g (List.mem_append_left _ hg)
  have hf : f.value < 2 ^ f.width := h f (List.mem_append_right _ (List.mem_cons_self ..))
  rw [place_append, Nat.add_mul_div_left _ _ (Nat.two_pow_pos _), Nat.div_eq_of_lt hb, Nat.zero_add,
    place, Nat.add_mul_mod_self_left, Nat.mod_eq_of_lt hf]

/-- Packing places fields that fit into a word that is wide enough. -/
theorem pack_eq_ok {fields : FieldSet} {wordBits : Nat} (hw : wordBits ≠ 0 ∧ wordBits % 8 = 0)
    (ht : fields.totalBits ≤ wordBits) (hf : ∀ f ∈ fields, f.Fits) :
    fields.pack wordBits = .ok (Bytes.ofNat (wordBits / 8) fields.place) := by
  have hlength : (List.replicate (wordBits / 8) (0 : UInt8)).length = wordBits / 8 :=
    List.length_replicate
  have hclear := Bytes.toNat_replicate_zero (wordBits / 8)
  have hempty : Bytes.toNat (List.replicate (wordBits / 8) 0) < 2 ^ 0 := by
    rw [hclear]
    decide
  obtain ⟨word, hok, hsize, hvalue⟩ := stampFrom_eq_ok hf hempty (by omega)
  rw [hclear, Nat.pow_zero, Nat.one_mul, Nat.zero_add] at hvalue
  rw [pack, if_neg (by omega), if_neg (by omega), hok, ← hvalue, ← hlength, ← hsize,
    Bytes.ofNat_toNat]

theorem toNat_pack {fields : FieldSet} {wordBits : Nat} {word : List UInt8}
    (hf : ∀ f ∈ fields, f.Fits) (h : fields.pack wordBits = .ok word) :
    word.length = wordBits / 8 ∧ fields.totalBits ≤ 8 * word.length ∧
      Bytes.toNat word = fields.place := by
  have hw : ¬ (wordBits = 0 ∨ wordBits % 8 ≠ 0) := by
    intro hw
    rw [pack, if_pos hw] at h
    cases h
  have ht : ¬ wordBits < fields.totalBits := by
    intro ht
    rw [pack, if_neg hw, if_pos ht] at h
    cases h
  rw [pack_eq_ok (by omega) (by omega) hf] at h
  cases h
  have hb : 8 * (wordBits / 8) = wordBits := by omega
  have hp : fields.place < 256 ^ (wordBits / 8) := by
    rw [Bytes.two_pow_bytes, hb]
    exact Nat.lt_of_lt_of_le (place_lt fields hf) (Nat.pow_le_pow_right (by decide) (by omega))
  rw [Bytes.length_ofNat, Bytes.toNat_ofNat, Nat.mod_eq_of_lt hp]
  exact ⟨rfl, by omega, rfl⟩

theorem ofFields_eq_ok_iff {fields : List Field} {set : FieldSet} :
    ofFields fields = .ok set ↔
      (∀ f ∈ fields, f.width ≤ Field.maxWidth ∧ f.Fits) ∧ set = fields := by
  suffices h : ∀ done : FieldSet,
      fields.foldlM (fun set f => push set f.name f.width f.value) done = .ok set ↔
        (∀ f ∈ fields, f.width ≤ Field.maxWidth ∧ f.Fits) ∧ set = done ++ fields from h []
  induction fields with
  | nil => simp [pure, Except.pure, eq_comm]
  | cons f fs ih =>
    intro done
    rw [List.foldlM_cons, push]
    by_cases hw : Field.maxWidth < f.width
    · simp [hw, bind, Except.bind, Nat.not_le.mpr hw]
    · by_cases hf : f.Fits
      · simp [hw, hf, bind, Except.bind, ih, Nat.not_lt.mp hw]
      · simp [hw, hf, bind, Except.bind]

theorem value_cons (f : Field) (fs : FieldSet) (name : String) :
    value (f :: fs) name = if f.name = name then f.value else value fs name := by
  by_cases h : f.name = name <;> simp [value, get?, h]

theorem value_append {before : FieldSet} {name : String} (h : ∀ f ∈ before, f.name ≠ name)
    (after : FieldSet) : value (before ++ after) name = value after name := by
  induction before with
  | nil => rfl
  | cons f fs ih =>
    rw [List.cons_append, value_cons, if_neg (h f (List.mem_cons_self ..)),
      ih fun g hg => h g (List.mem_cons_of_mem _ hg)]

theorem value_eq_zero {fields : FieldSet} {name : String}
    (h : ∀ f ∈ fields, f.name = name → f.value = 0) : fields.value name = 0 := by
  induction fields with
  | nil => rfl
  | cons f fs ih =>
    rw [value_cons]
    split
    · rename_i hn
      exact h f (List.mem_cons_self ..) hn
    · exact ih fun g hg => h g (List.mem_cons_of_mem _ hg)

theorem value_of_mem {fields : FieldSet} (hn : (fields.map Field.name).Nodup) {f : Field}
    (hf : f ∈ fields) : fields.value f.name = f.value := by
  induction fields with
  | nil => cases hf
  | cons g gs ih =>
    rw [List.map_cons, List.nodup_cons] at hn
    rw [value_cons]
    rcases List.mem_cons.mp hf with rfl | hf
    · rw [if_pos rfl]
    · have hne : g.name ≠ f.name := fun he => hn.1 (List.mem_map.mpr ⟨f, hf, he.symm⟩)
      rw [if_neg hne, ih hn.2 hf]

theorem set_spec {fields fields' : FieldSet} {name : String} {v : Nat}
    (h : fields.set name v = .ok fields') :
    fields'.skeleton = fields.skeleton ∧
      ((∀ f ∈ fields, f.Fits) → ∀ f ∈ fields', f.Fits) ∧
      ∀ other, fields'.value other = if other = name then v else fields.value other := by
  induction fields generalizing fields' with
  | nil => cases h
  | cons f fs ih =>
    rw [set] at h
    split at h
    · rename_i hn
      dsimp only at h
      split at h
      · rename_i hf
        cases h
        refine ⟨rfl, ?_, ?_⟩
        · intro ha g hg
          rcases List.mem_cons.mp hg with rfl | hg
          · exact hf
          · exact ha g (List.mem_cons_of_mem _ hg)
        · intro other
          simp only [value_cons, hn, eq_comm (a := other)]
          split <;> rfl
      · cases h
    · rename_i hn
      cases hr : set fs name v with
      | error e => rw [hr] at h; cases h
      | ok fs' =>
        rw [hr] at h
        cases h
        obtain ⟨hs, hf, hv⟩ := ih hr
        refine ⟨?_, ?_, ?_⟩
        · simp only [skeleton, List.map_cons] at hs ⊢
          rw [hs]
        · intro ha g hg
          rcases List.mem_cons.mp hg with rfl | hg
          · exact ha _ (List.mem_cons_self ..)
          · exact hf (fun x hx => ha x (List.mem_cons_of_mem _ hx)) g hg
        · intro other
          rw [value_cons, value_cons, hv]
          by_cases ho : f.name = other
          · subst ho
            simp [hn]
          · simp [ho]

theorem setAll_spec {fields fields' : FieldSet} {values : List (String × Nat)}
    (h : fields.setAll values = .ok fields') (hn : (values.map Prod.fst).Nodup) :
    fields'.skeleton = fields.skeleton ∧
      ((∀ f ∈ fields, f.Fits) → ∀ f ∈ fields', f.Fits) ∧
      ∀ name, fields'.value name = (values.lookup name).getD (fields.value name) := by
  induction values generalizing fields with
  | nil =>
    cases h
    exact ⟨rfl, id, fun _ => rfl⟩
  | cons v vs ih =>
    obtain ⟨key, x⟩ := v
    rw [List.map_cons, List.nodup_cons] at hn
    rw [setAll, List.foldlM_cons] at h
    cases hr : fields.set key x with
    | error e => rw [hr] at h; cases h
    | ok next =>
      rw [hr] at h
      obtain ⟨hs, hf, hv⟩ := set_spec hr
      obtain ⟨hs', hf', hv'⟩ := ih h hn.2
      refine ⟨hs'.trans hs, fun ha => hf' (hf ha), fun name => ?_⟩
      rw [hv', hv, List.lookup_cons]
      by_cases hk : name = key
      · have hm : vs.lookup name = none := by
          rw [List.lookup_eq_none_iff]
          intro p hp
          have hne : p.1 ≠ key := fun he => hn.1 (List.mem_map.mpr ⟨p, hp, he⟩)
          simpa [hk] using hne.symm
        rw [hm, if_pos hk, beq_iff_eq.mpr hk]
        rfl
      · rw [if_neg hk, beq_eq_false_iff_ne.mpr hk]

theorem names_eq_of_skeleton {a b : FieldSet} (h : a.skeleton = b.skeleton) :
    a.map Field.name = b.map Field.name := by
  have hn := congrArg (List.map Prod.fst) h
  rwa [skeleton, skeleton, List.map_map, List.map_map] at hn

def width (fields : FieldSet) (name : String) : Nat :=
  (fields.skeleton.lookup name).getD 0

theorem width_eq_of_skeleton {a b : FieldSet} (h : a.skeleton = b.skeleton) (name : String) :
    a.width name = b.width name := by
  rw [width, width, h]

theorem width_cons (f : Field) (fs : FieldSet) (name : String) :
    width (f :: fs) name = if f.name = name then f.width else width fs name := by
  rw [width, skeleton, List.map_cons, List.lookup_cons]
  by_cases h : f.name = name
  · rw [if_pos h, beq_iff_eq.mpr h.symm]
    rfl
  · rw [if_neg h, beq_eq_false_iff_ne.mpr (Ne.symm h)]
    rfl

theorem value_lt_width {fields : FieldSet} (hf : ∀ f ∈ fields, f.Fits) (name : String) :
    fields.value name < 2 ^ fields.width name := by
  induction fields with
  | nil => exact Nat.two_pow_pos _
  | cons f fs ih =>
    rw [value_cons, width_cons]
    split
    · exact hf f (List.mem_cons_self ..)
    · exact ih fun g hg => hf g (List.mem_cons_of_mem _ hg)

theorem width_of_mem {fields : FieldSet} (hn : (fields.map Field.name).Nodup) {f : Field}
    (hf : f ∈ fields) : fields.width f.name = f.width := by
  induction fields with
  | nil => cases hf
  | cons g gs ih =>
    rw [List.map_cons, List.nodup_cons] at hn
    rw [width_cons]
    rcases List.mem_cons.mp hf with rfl | hf
    · rw [if_pos rfl]
    · have hne : g.name ≠ f.name := fun he => hn.1 (List.mem_map.mpr ⟨f, hf, he.symm⟩)
      rw [if_neg hne, ih hn.2 hf]

theorem exists_set {fields : FieldSet} {name : String} (hm : name ∈ fields.map Field.name)
    {v : Nat} (hv : v < 2 ^ fields.width name) : ∃ fields', fields.set name v = .ok fields' := by
  induction fields with
  | nil => cases hm
  | cons f fs ih =>
    rw [width_cons] at hv
    rw [set]
    by_cases hname : f.name = name
    · rw [if_pos hname] at hv
      have hfit : Field.Fits { f with value := v } := hv
      rw [if_pos hname, if_pos hfit]
      exact ⟨_, rfl⟩
    · rw [if_neg hname] at hv
      obtain ⟨fs', hset⟩ := ih ((List.mem_cons.mp hm).resolve_left (Ne.symm hname)) hv
      rw [if_neg hname, hset]
      exact ⟨_, rfl⟩

theorem exists_setAll {fields : FieldSet} {values : List (String × Nat)}
    (hv : ∀ v ∈ values, v.1 ∈ fields.map Field.name ∧ v.2 < 2 ^ fields.width v.1) :
    ∃ fields', fields.setAll values = .ok fields' := by
  induction values generalizing fields with
  | nil => exact ⟨fields, rfl⟩
  | cons v vs ih =>
    obtain ⟨hm, hlt⟩ := hv v (List.mem_cons_self ..)
    obtain ⟨next, hset⟩ := exists_set hm hlt
    have hs := (set_spec hset).1
    rw [setAll, List.foldlM_cons, hset]
    apply ih
    intro u hu
    rw [names_eq_of_skeleton hs, width_eq_of_skeleton hs]
    exact hv u (List.mem_cons_of_mem _ hu)

theorem set_eq_error {fields : FieldSet} {name : String} (hm : name ∈ fields.map Field.name)
    {v : Nat} {error : EncodeError} (h : fields.set name v = .error error) :
    2 ^ fields.width name ≤ v ∧ error = .valueOutOfRange name v (fields.width name) := by
  induction fields with
  | nil => cases hm
  | cons f fs ih =>
    rw [width_cons]
    rw [set] at h
    by_cases hname : f.name = name
    · rw [if_pos hname] at h ⊢
      dsimp only at h
      split at h
      · cases h
      · rename_i hfit
        cases h
        exact ⟨Nat.not_lt.mp hfit, rfl⟩
    · rw [if_neg hname] at h ⊢
      cases hset : set fs name v with
      | ok fs' =>
        rw [hset] at h
        cases h
      | error e =>
        rw [hset] at h
        cases h
        exact ih ((List.mem_cons.mp hm).resolve_left (Ne.symm hname)) hset

theorem setAll_eq_error {fields : FieldSet} {values : List (String × Nat)}
    (hm : ∀ v ∈ values, v.1 ∈ fields.map Field.name) {error : EncodeError}
    (h : fields.setAll values = .error error) :
    ∃ v ∈ values, 2 ^ fields.width v.1 ≤ v.2 ∧
      error = .valueOutOfRange v.1 v.2 (fields.width v.1) := by
  induction values generalizing fields with
  | nil => cases h
  | cons v vs ih =>
    rw [setAll, List.foldlM_cons] at h
    cases hset : fields.set v.1 v.2 with
    | error e =>
      rw [hset] at h
      cases h
      exact ⟨v, List.mem_cons_self .., set_eq_error (hm v (List.mem_cons_self ..)) hset⟩
    | ok next =>
      rw [hset] at h
      have hs := (set_spec hset).1
      have hnext : ∀ u ∈ vs, u.1 ∈ next.map Field.name := by
        rw [names_eq_of_skeleton hs]
        exact fun u hu => hm u (List.mem_cons_of_mem _ hu)
      obtain ⟨u, hu, hlt, he⟩ := ih hnext h
      rw [width_eq_of_skeleton hs] at hlt he
      exact ⟨u, List.mem_cons_of_mem _ hu, hlt, he⟩

theorem value_lt_of_width {fields template : FieldSet} {bits : Nat}
    (hs : fields.skeleton = template.skeleton) (hf : ∀ f ∈ fields, f.Fits)
    (hw : ∀ f ∈ template, f.width ≤ bits) (name : String) : fields.value name < 2 ^ bits := by
  induction fields generalizing template with
  | nil => exact Nat.two_pow_pos _
  | cons f fs ih =>
    obtain ⟨g, gs, rfl, hg, hgs⟩ := List.map_eq_cons_iff.mp hs.symm
    have hv : f.value < 2 ^ f.width := hf f (List.mem_cons_self ..)
    have hle : f.width ≤ bits := by
      rw [← (Prod.mk.inj hg).2]
      exact hw g (List.mem_cons_self ..)
    rw [value_cons]
    split
    · exact Nat.lt_of_lt_of_le hv (Nat.pow_le_pow_right (by decide) hle)
    · exact ih hgs.symm (fun x hx => hf x (List.mem_cons_of_mem _ hx))
        fun x hx => hw x (List.mem_cons_of_mem _ hx)

theorem eq_map_skeleton {fields : FieldSet} (hn : (fields.map Field.name).Nodup) :
    fields = fields.skeleton.map fun p => ⟨p.1, p.2, fields.value p.1⟩ := by
  rw [skeleton, List.map_map]
  apply List.ext_getElem (by rw [List.length_map])
  intro i hi _
  have hv := value_of_mem hn (List.getElem_mem hi)
  rw [List.getElem_map, Function.comp_apply, hv]

theorem eq_of_value {a b : FieldSet} (hs : a.skeleton = b.skeleton)
    (hn : (b.map Field.name).Nodup) (hv : ∀ name ∈ b.map Field.name, a.value name = b.value name) :
    a = b := by
  rw [eq_map_skeleton (names_eq_of_skeleton hs ▸ hn : (a.map Field.name).Nodup),
    eq_map_skeleton hn, hs]
  apply List.map_congr_left
  intro p hp
  obtain ⟨f, hf, rfl⟩ := List.mem_map.mp hp
  rw [hv f.name (List.mem_map_of_mem hf)]

/-- The lowest bits of every field, as many as `kept` says of its name. -/
def clip (kept : String → Nat) (fields : FieldSet) : FieldSet :=
  fields.map fun f => { f with value := f.value % 2 ^ kept f.name }

def keeps (kept : String → Nat) (start : Nat) : FieldSet → Nat → Bool
  | [], _ => false
  | f :: fs, bit =>
    decide (start ≤ bit ∧ bit < start + min f.width (kept f.name)) ||
      keeps kept (start + f.width) fs bit

theorem keeps_of_lt (kept : String → Nat) {start bit : Nat} (fields : FieldSet) (h : bit < start) :
    keeps kept start fields bit = false := by
  induction fields generalizing start with
  | nil => rfl
  | cons f fs ih =>
    rw [keeps, ih (Nat.lt_add_right _ h), Bool.or_false, decide_eq_false]
    omega

theorem skeleton_clip (kept : String → Nat) (fields : FieldSet) :
    (clip kept fields).skeleton = fields.skeleton := by
  rw [skeleton, clip, List.map_map]
  rfl

theorem fits_clip (kept : String → Nat) {fields : FieldSet} (h : ∀ f ∈ fields, f.Fits) :
    ∀ f ∈ clip kept fields, f.Fits := by
  intro f hf
  obtain ⟨g, hg, rfl⟩ := List.mem_map.mp hf
  exact Nat.lt_of_le_of_lt (Nat.mod_le ..) (h g hg)

theorem value_clip (kept : String → Nat) (fields : FieldSet) (name : String) :
    (clip kept fields).value name = fields.value name % 2 ^ kept name := by
  induction fields with
  | nil => exact (Nat.zero_mod _).symm
  | cons f fs ih =>
    rw [clip, List.map_cons, value_cons, value_cons]
    by_cases hn : f.name = name
    · rw [if_pos hn, if_pos hn, hn]
    · rw [if_neg hn, if_neg hn]
      exact ih

theorem testBit_place_cons {f : Field} (hf : f.Fits) (fs : FieldSet) (bit : Nat) :
    (place (f :: fs)).testBit bit =
      if bit < f.width then f.value.testBit bit else (place fs).testBit (bit - f.width) := by
  rw [place, Nat.add_comm, Nat.testBit_two_pow_mul_add _ hf]

theorem testBit_place_clip (kept : String → Nat) (start : Nat) (template : FieldSet) (n bit : Nat) :
    (clip kept (template.fill n)).place.testBit bit =
      (n.testBit bit && keeps kept start template (start + bit)) := by
  induction template generalizing start n bit with
  | nil => simp [fill, clip, place, keeps]
  | cons f fs ih =>
    have hf : Field.Fits ⟨f.name, f.width, n % 2 ^ f.width % 2 ^ kept f.name⟩ :=
      Nat.lt_of_le_of_lt (Nat.mod_le ..) (Nat.mod_lt _ (Nat.two_pow_pos _))
    rw [fill, clip, List.map_cons, testBit_place_cons hf, keeps]
    split
    · rename_i hb
      have hw : bit < f.width := hb
      have hkept : (start ≤ start + bit ∧ start + bit < start + min f.width (kept f.name)) ↔
          bit < kept f.name := by omega
      rw [keeps_of_lt _ _ (by omega), Nat.testBit_mod_two_pow, Nat.testBit_mod_two_pow,
        decide_eq_true hw, Bool.true_and, Bool.or_false, decide_eq_decide.mpr hkept, Bool.and_comm]
    · rename_i hb
      have hw : f.width ≤ bit := Nat.not_lt.mp hb
      have hi := ih (start + f.width) (n / 2 ^ f.width) (bit - f.width)
      have hs : start + f.width + (bit - f.width) = start + bit := by omega
      have hd : ¬ (start ≤ start + bit ∧ start + bit < start + min f.width (kept f.name)) := by
        omega
      rw [Nat.testBit_div_two_pow, Nat.sub_add_cancel hw, hs] at hi
      rw [decide_eq_false hd, Bool.false_or]
      exact hi

theorem fill_append (a b : FieldSet) (n : Nat) :
    fill (a ++ b) n = fill a n ++ fill b (n / 2 ^ totalBits a) := by
  induction a generalizing n with
  | nil => simp [fill]
  | cons f fs ih =>
    rw [List.cons_append, fill, fill, ih, totalBits_cons, Nat.pow_add, Nat.div_div_eq_div_mul,
      List.cons_append]

theorem value_fill {before : FieldSet} {f : Field} (h : ∀ g ∈ before, g.name ≠ f.name)
    (after : FieldSet) (n : Nat) :
    value (fill (before ++ f :: after) n) f.name = n / 2 ^ totalBits before % 2 ^ f.width := by
  have hb : ∀ g ∈ fill before n, g.name ≠ f.name := by
    intro g hg
    have hm : g.name ∈ before.map Field.name := by
      rw [← names_eq_of_skeleton (skeleton_fill before n)]
      exact List.mem_map_of_mem hg
    obtain ⟨k, hk, he⟩ := List.mem_map.mp hm
    exact he ▸ h k hk
  rw [fill_append, value_append hb, fill, value_cons, if_pos rfl]

end FieldSet

namespace Word

theorem gather_eq {position number : Nat} (h : number < 2 ^ (8 * position)) (bytes : List UInt8) :
    gather position number bytes = Bytes.toNat bytes <<< (8 * position) ||| number := by
  induction bytes generalizing position number with
  | nil => simp [gather, Bytes.toNat]
  | cons b bs ih =>
    have hb : b.toNat < 2 ^ 8 := UInt8.toNat_lt b
    have hbyte : b.toNat <<< (8 * position) < 2 ^ (8 * (position + 1)) := by
      rw [Nat.shiftLeft_eq, Nat.mul_succ, Nat.add_comm, Nat.pow_add]
      exact Nat.mul_lt_mul_of_pos_right hb (Nat.two_pow_pos _)
    have hnumber : number < 2 ^ (8 * (position + 1)) :=
      Nat.lt_of_lt_of_le h (Nat.pow_le_pow_right (by decide) (by omega))
    have hcons : Bytes.toNat (b :: bs) = Bytes.toNat bs <<< 8 ||| b.toNat := by
      rw [← Nat.shiftLeft_add_eq_or_of_lt hb, Nat.shiftLeft_eq, Bytes.toNat]
      omega
    rw [gather, ih (Nat.or_lt_two_pow hnumber hbyte), hcons, Nat.shiftLeft_or_distrib,
      ← Nat.shiftLeft_add, Nat.mul_succ, Nat.add_comm 8]
    ac_rfl

theorem gather_zero (bytes : List UInt8) : gather 0 0 bytes = Bytes.toNat bytes := by
  rw [gather_eq (by decide)]
  simp

theorem slice?_window {word : List UInt8} {offset width : Nat} (h0 : 0 < width)
    (hb : offset + width ≤ 8 * word.length) :
    Bytes.slice? word (offset / 8) ((offset + width - 1) / 8) =
      some ((word.drop (offset / 8)).take ((offset % 8 + width + 7) / 8)) := by
  have hspan : (offset + width - 1) / 8 + 1 - offset / 8 = (offset % 8 + width + 7) / 8 := by omega
  rw [Bytes.slice?, if_pos (by omega), hspan]

theorem extract_eq_ok {word : List UInt8} {offset width : Nat} (hw : width ≤ Field.maxWidth)
    (hl : offset + width < 2 ^ 32) (hb : offset + width ≤ 8 * word.length) :
    extract word offset width = .ok (Bytes.toNat word / 2 ^ offset % 2 ^ width) := by
  rw [extract, if_neg (by omega), if_neg (by omega), if_neg (by omega)]
  split
  · rename_i h0
    rw [h0, Nat.pow_zero, Nat.mod_one]
  · rename_i h0
    have hs : offset % 8 + width ≤ 8 * ((offset % 8 + width + 7) / 8) := by omega
    have ho : 2 ^ (8 * (offset / 8)) * 2 ^ (offset % 8) = 2 ^ offset := by
      rw [← Nat.pow_add, Nat.div_add_mod]
    rw [slice?_window (Nat.pos_of_ne_zero h0) hb]
    simp only [gather_zero, Nat.and_two_pow_sub_one_eq_mod, Nat.shiftRight_eq_div_pow,
      Bytes.toNat_take, Bytes.toNat_drop, Bytes.two_pow_bytes, window_bits _ _ _ hs,
      Nat.div_div_eq_div_mul, ho]

theorem unpackFrom_cons {word : List UInt8} {f : Field} (fs : FieldSet) {offset : Nat}
    (done : FieldSet) (hf : f.width ≤ Field.maxWidth) (hl : offset + f.width < 2 ^ 32)
    (hb : offset + f.width ≤ 8 * word.length) :
    unpackFrom word offset done (f :: fs) =
      unpackFrom word (offset + f.width)
        (done ++ [{ f with value := Bytes.toNat word / 2 ^ offset % 2 ^ f.width }]) fs := by
  have he : extract word offset f.width = _ := extract_eq_ok hf hl hb
  have hv : Field.Fits ⟨f.name, f.width, Bytes.toNat word / 2 ^ offset % 2 ^ f.width⟩ :=
    Nat.mod_lt _ (Nat.two_pow_pos _)
  have hp : done.push f.name f.width (Bytes.toNat word / 2 ^ offset % 2 ^ f.width) =
      .ok (done ++ [{ f with value := Bytes.toNat word / 2 ^ offset % 2 ^ f.width }]) := by
    rw [FieldSet.push, if_neg (Nat.not_lt.mpr hf), if_pos hv]
  rw [unpackFrom, he]
  simp only [bind, Except.bind, hp]

theorem unpackFrom_eq_ok {word : List UInt8} {template : FieldSet} (offset : Nat) (done : FieldSet)
    (hw : ∀ f ∈ template, f.width ≤ Field.maxWidth)
    (hl : offset + template.totalBits < 2 ^ 32)
    (hb : offset + template.totalBits ≤ 8 * word.length) :
    unpackFrom word offset done template =
      .ok (done ++ template.fill (Bytes.toNat word / 2 ^ offset)) := by
  induction template generalizing offset done with
  | nil => simp [unpackFrom, FieldSet.fill]
  | cons f fs ih =>
    rw [FieldSet.totalBits_cons] at hl hb
    rw [unpackFrom_cons fs done (hw f (List.mem_cons_self ..)) (by omega) (by omega),
      ih _ _ (fun g hg => hw g (List.mem_cons_of_mem _ hg)) (by omega) (by omega),
      Nat.pow_add, ← Nat.div_div_eq_div_mul, List.append_assoc, List.singleton_append,
      FieldSet.fill]

theorem unpack_eq_ok {word : List UInt8} {template : FieldSet}
    (hw : ∀ f ∈ template, f.width ≤ Field.maxWidth) (hl : template.totalBits < 2 ^ 32)
    (hb : template.totalBits ≤ 8 * word.length) :
    unpack word template = .ok (template.fill (Bytes.toNat word)) := by
  have h : unpackFrom word 0 [] template = _ := unpackFrom_eq_ok 0 [] hw (by omega) (by omega)
  simpa [unpack] using h

/-- What is packed is unpacked, by any template of its shape. -/
theorem unpack_pack {fields template : FieldSet} {wordBits : Nat} {word : List UInt8}
    (hs : template.skeleton = fields.skeleton) (hf : ∀ f ∈ fields, f.Fits)
    (hw : ∀ f ∈ template, f.width ≤ Field.maxWidth) (hl : template.totalBits < 2 ^ 32)
    (h : fields.pack wordBits = .ok word) : unpack word template = .ok fields := by
  obtain ⟨_, hb, hn⟩ := FieldSet.toNat_pack hf h
  have ht := FieldSet.totalBits_eq_of_skeleton hs
  rw [unpack_eq_ok hw hl (by omega), hn, FieldSet.fill_place hs hf]

theorem extract_pack {after : FieldSet} (before : FieldSet) {f : Field} {wordBits : Nat}
    {word : List UInt8}
    (hf : ∀ g ∈ before ++ f :: after, g.Fits) (hw : f.width ≤ Field.maxWidth)
    (hl : before.totalBits + f.width < 2 ^ 32)
    (h : FieldSet.pack (before ++ f :: after) wordBits = .ok word) :
    extract word before.totalBits f.width = .ok f.value := by
  obtain ⟨_, hb, hn⟩ := FieldSet.toNat_pack hf h
  rw [FieldSet.totalBits_append, FieldSet.totalBits_cons] at hb
  rw [extract_eq_ok hw hl (by omega), hn, FieldSet.window_place hf]

end Word

theorem DecodeError.lift_bind {α β : Type} {x : Except EncodeError α} {a : α}
    {f : α → Except DecodeError β} (h : x = .ok a) : (liftM x >>= f) = f a := by
  rw [h]
  rfl

end TensorUnit
