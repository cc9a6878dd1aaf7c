import TensorUnit.Text.Hex

namespace TensorUnit.Text

def OneLine (text : String) : Prop :=
  '\n' ∉ text.toList

instance (text : String) : Decidable (OneLine text) :=
  inferInstanceAs (Decidable (_ ∉ _))

def lines (text : String) : List String :=
  (text.toList.splitOn '\n').dropLast.map String.ofList

def unlines (texts : List String) : String :=
  String.join (texts.map (· ++ "\n"))

theorem toList_unlines (texts : List String) :
    (unlines texts).toList = ['\n'].intercalate (texts.map String.toList ++ [[]]) := by
  rw [unlines, String.toList_join]
  induction texts with
  | nil => rfl
  | cons text texts ih =>
    rw [List.map_cons, List.flatMap_cons, ih, List.map_cons, List.cons_append,
      List.intercalate_cons_of_ne_nil (by simp), String.toList_append]
    rfl

theorem lines_unlines {texts : List String} (h : ∀ text ∈ texts, OneLine text) :
    lines (unlines texts) = texts := by
  have hfeed : ∀ l ∈ texts.map String.toList ++ [[]], '\n' ∉ l := by
    intro l hl
    rcases List.mem_append.mp hl with hl | hl
    · obtain ⟨text, ht, rfl⟩ := List.mem_map.mp hl
      exact h text ht
    · rw [List.mem_singleton.mp hl]
      exact List.not_mem_nil
  rw [lines, toList_unlines, List.splitOn_intercalate _ hfeed (by simp), List.dropLast_concat,
    List.map_map]
  simp [Function.comp_def]

namespace Hex

theorem exists_digit {n : Nat} {c : Char} (h : c ∈ Nat.toDigits 16 n) :
    ∃ d < 16, c = Nat.digitChar d := by
  induction n using Nat.strongRecOn with
  | ind n ih =>
    by_cases hn : n < 16
    · rw [Nat.toDigits_of_lt_base hn, List.mem_singleton] at h
      exact ⟨n, hn, h⟩
    · rw [Nat.toDigits_of_base_le (by decide) (Nat.not_lt.mp hn), List.mem_append,
        List.mem_singleton] at h
      rcases h with h | h
      · exact ih (n / 16) (by omega) h
      · exact ⟨n % 16, Nat.mod_lt _ (by decide), h⟩

theorem exists_digit_of_width {width n : Nat} {c : Char} (h : c ∈ digitsOfWidth width n) :
    ∃ d < 16, c = Nat.digitChar d := by
  rcases List.mem_append.mp h with h | h
  · exact ⟨0, by decide, (List.mem_replicate.mp h).2⟩
  · exact exists_digit h

theorem exists_digit_of_byte {b : UInt8} {c : Char} (h : c ∈ digitChars b) :
    ∃ d < 16, c = Nat.digitChar d := by
  have hb := b.toNat_lt
  simp only [digitChars, List.mem_cons, List.not_mem_nil, or_false] at h
  rcases h with rfl | rfl
  · exact ⟨b.toNat / 16, by omega, rfl⟩
  · exact ⟨b.toNat % 16, by omega, rfl⟩

theorem digitValue?_upper : ∀ d < 16, digitValue? (Nat.digitChar d).toUpper = some d := by
  decide

theorem readFrom_append (value : Nat) (cs ds : List Char) :
    readFrom value (cs ++ ds) = (readFrom value cs).bind fun v => readFrom v ds := by
  induction cs generalizing value with
  | nil => rfl
  | cons c cs ih =>
    rw [List.cons_append, readFrom, readFrom]
    cases digitValue? c with
    | none => rfl
    | some d => exact ih _

theorem readFrom_toDigits (n : Nat) :
    readFrom 0 ((Nat.toDigits 16 n).map Char.toUpper) = some n := by
  induction n using Nat.strongRecOn with
  | ind n ih =>
    by_cases hn : n < 16
    · rw [Nat.toDigits_of_lt_base hn, List.map_singleton, readFrom, digitValue?_upper n hn]
      simp [readFrom]
    · have hmod : n % 16 < 16 := Nat.mod_lt _ (by decide)
      rw [Nat.toDigits_of_base_le (by decide) (Nat.not_lt.mp hn), List.map_append,
        List.map_singleton, readFrom_append, ih (n / 16) (by omega), Option.bind_some, readFrom,
        digitValue?_upper _ hmod, Option.bind_some, readFrom, Nat.div_add_mod]

theorem toNat?_padded (width n : Nat) : toNat? (padded width n) = some n := by
  have hzeros : ∀ k (cs : List Char),
      readFrom 0 ((List.replicate k '0').map Char.toUpper ++ cs) = readFrom 0 cs := by
    intro k cs
    induction k with
    | zero => rfl
    | succ k ih => exact ih
  rw [toNat?, if_neg, padded, String.toList_ofList, digitsOfWidth, List.map_append, hzeros,
    readFrom_toDigits]
  simp [padded, digitsOfWidth, Nat.toDigits_ne_nil]

theorem length_padded (width n : Nat) :
    (padded width n).length = max width (Nat.toDigits 16 n).length := by
  rw [padded, String.length_ofList, List.length_map, digitsOfWidth, List.length_append,
    List.length_replicate]
  omega

theorem bytesFrom_flatMap (done bytes : List UInt8) :
    bytesFrom done ((bytes.flatMap digitChars).map Char.toUpper) =
      some (done.reverse ++ bytes) := by
  induction bytes generalizing done with
  | nil => simp [bytesFrom]
  | cons b bs ih =>
    have hb := b.toNat_lt
    have hval : UInt8.ofNat (16 * (b.toNat / 16) + b.toNat % 16) = b := by
      rw [Nat.div_add_mod, UInt8.ofNat_toNat]
    rw [List.flatMap_cons, digitChars, List.cons_append, List.cons_append, List.nil_append,
      List.map_cons, List.map_cons, bytesFrom, digitValue?_upper _ (by omega),
      digitValue?_upper _ (by omega)]
    change bytesFrom (UInt8.ofNat (16 * (b.toNat / 16) + b.toNat % 16) :: done) _ = _
    rw [hval, ih, List.reverse_cons, List.append_assoc, List.singleton_append]

theorem toBytes?_ofWord (word : List UInt8) : toBytes? (ofWord word) = some word.reverse := by
  rw [toBytes?, ofWord, String.toList_ofList, bytesFrom_flatMap]
  rfl

end Hex

section OneLine

-- with these `simp` finds a text of literals, numbers and texts of one line to be of one line

@[simp] theorem toString_string (text : String) : toString text = text := rfl

@[simp] theorem feed_notMem_decimal (n : Nat) : '\n' ∉ Nat.toDigits 10 n := fun h =>
  absurd (Nat.isDigit_of_mem_toDigits (by decide) (by decide) h) (by decide)

@[simp] theorem feed_notMem_toString (x : UInt64) : '\n' ∉ (toString x).toList := by
  change '\n' ∉ x.toNat.repr.toList
  simp

theorem feed_notMem_digits {cs : List Char} (h : ∀ c ∈ cs, ∃ d < 16, c = Nat.digitChar d) :
    '\n' ∉ cs ∧ '\n' ∉ cs.map Char.toUpper := by
  have hfeed : ∀ d < 16, Nat.digitChar d ≠ '\n' ∧ (Nat.digitChar d).toUpper ≠ '\n' := by decide
  simp only [List.mem_map, not_exists, not_and]
  refine ⟨fun hm => ?_, fun c hm => ?_⟩
  · obtain ⟨d, hd, hc⟩ := h _ hm
    exact (hfeed d hd).1 hc.symm
  · obtain ⟨d, hd, rfl⟩ := h c hm
    exact (hfeed d hd).2

@[simp] theorem feed_notMem_prefixed (n : Nat) : '\n' ∉ (Hex.prefixed n).toList := by
  have hdigits : ∀ c ∈ Nat.toDigits 16 n, ∃ d < 16, c = Nat.digitChar d :=
    fun _ => Hex.exists_digit
  have h := (feed_notMem_digits hdigits).1
  simpa [Hex.prefixed, Hex.digits] using h

@[simp] theorem feed_notMem_prefixedUpper (width n : Nat) :
    '\n' ∉ (Hex.prefixedUpper width n).toList := by
  have hdigits : ∀ c ∈ Hex.digitsOfWidth width n, ∃ d < 16, c = Nat.digitChar d :=
    fun _ => Hex.exists_digit_of_width
  have h := (feed_notMem_digits hdigits).2
  simpa [Hex.prefixedUpper, Hex.padded] using h

@[simp] theorem feed_notMem_ofWord (word : List UInt8) : '\n' ∉ (Hex.ofWord word).toList := by
  have hdigits : ∀ c ∈ word.reverse.flatMap Hex.digitChars, ∃ d < 16, c = Nat.digitChar d := by
    intro c hc
    obtain ⟨b, _, hb⟩ := List.mem_flatMap.mp hc
    exact Hex.exists_digit_of_byte hb
  rw [Hex.ofWord, String.toList_ofList]
  exact (feed_notMem_digits hdigits).2

theorem OneLine.intercalate {sep : String} (hs : OneLine sep) {texts : List String}
    (h : ∀ text ∈ texts, OneLine text) : OneLine (sep.intercalate texts) := by
  rw [OneLine, String.toList_intercalate]
  induction texts with
  | nil => exact List.not_mem_nil
  | cons text texts ih =>
    obtain ⟨ht, hts⟩ := List.forall_mem_cons.mp h
    cases texts with
    | nil =>
      rw [List.map_singleton, List.intercalate_singleton]
      exact ht
    | cons next rest =>
      rw [List.map_cons, List.intercalate_cons_of_ne_nil (by simp)]
      simp only [List.mem_append, not_or]
      exact ⟨⟨ht, hs⟩, ih hts⟩

end OneLine

end TensorUnit.Text
