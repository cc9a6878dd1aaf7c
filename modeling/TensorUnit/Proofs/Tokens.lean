import TensorUnit.Proofs.Text

namespace TensorUnit

namespace Text

/-- A text that does not go on with characters of some kind. -/
def Stops (p : Char → Bool) : List Char → Prop
  | [] => True
  | c :: _ => p c = false

/-- A token is found again in front of a text that does not go on with its characters. -/
theorem token_inj {p : Char → Bool} {u v s t : List Char} (hu : ∀ c ∈ u, p c = true)
    (hv : ∀ c ∈ v, p c = true) (hs : Stops p s) (ht : Stops p t) (h : u ++ s = v ++ t) :
    u = v ∧ s = t := by
  induction u generalizing v with
  | nil =>
    cases v with
    | nil => exact ⟨rfl, h⟩
    | cons c v =>
      rw [List.nil_append] at h
      rw [h, List.cons_append, Stops, hv c (List.mem_cons_self ..)] at hs
      cases hs
  | cons b u ih =>
    cases v with
    | nil =>
      rw [List.nil_append] at h
      rw [← h, List.cons_append, Stops, hu b (List.mem_cons_self ..)] at ht
      cases ht
    | cons c v =>
      obtain ⟨rfl, hrest⟩ := List.cons.inj h
      obtain ⟨rfl, hst⟩ := ih (fun c hc => hu c (List.mem_cons_of_mem _ hc))
        (fun c hc => hv c (List.mem_cons_of_mem _ hc)) hrest
      exact ⟨rfl, hst⟩

def Token (p : Char → Bool) (text : String) : Prop :=
  ∀ c ∈ text.toList, p c = true

instance (p : Char → Bool) (text : String) : Decidable (Token p text) :=
  decidable_of_iff (text.toList.all p = true) List.all_eq_true

def fill : List String → List String → List Char
  | label :: labels, item :: items => label.toList ++ (item.toList ++ fill labels items)
  | _, _ => []

/-- A label that ends the item in front of it. -/
def Closes (p : Char → Bool) (label : String) : Prop :=
  label.toList ≠ [] ∧ Stops p label.toList

theorem stops_fill {p : Char → Bool} {labels : List String} (hl : ∀ l ∈ labels, Closes p l)
    (items : List String) {s : List Char} (hs : Stops p s) :
    Stops p (fill labels items ++ s) := by
  cases labels with
  | nil => exact hs
  | cons label labels =>
    cases items with
    | nil => exact hs
    | cons item items =>
      obtain ⟨hne, hstop⟩ := hl label (List.mem_cons_self ..)
      cases hlabel : label.toList with
      | nil => exact absurd hlabel hne
      | cons c cs =>
        rw [hlabel] at hstop
        rw [fill, hlabel]
        exact hstop

theorem fill_inj {p : Char → Bool} {label : String} {labels us vs : List String}
    (hu : us.length = labels.length + 1) (hv : vs.length = labels.length + 1)
    (hpu : ∀ u ∈ us, Token p u) (hpv : ∀ v ∈ vs, Token p v)
    (hl : ∀ l ∈ labels, Closes p l) {s t : List Char} (hs : Stops p s) (ht : Stops p t)
    (h : fill (label :: labels) us ++ s = fill (label :: labels) vs ++ t) : us = vs ∧ s = t := by
  induction labels generalizing label us vs with
  | nil =>
    obtain ⟨u, rfl⟩ := List.length_eq_one_iff.mp hu
    obtain ⟨v, rfl⟩ := List.length_eq_one_iff.mp hv
    simp only [fill, List.append_assoc, List.append_cancel_left_eq, List.nil_append] at h
    obtain ⟨huv, hst⟩ := token_inj (hpu u (List.mem_singleton_self u))
      (hpv v (List.mem_singleton_self v)) hs ht h
    exact ⟨congrArg (fun x => [x]) (String.toList_inj.mp huv), hst⟩
  | cons next labels ih =>
    obtain ⟨u, us, rfl⟩ := List.exists_cons_of_length_eq_add_one hu
    obtain ⟨v, vs, rfl⟩ := List.exists_cons_of_length_eq_add_one hv
    simp only [fill.eq_1 label, List.append_assoc, List.append_cancel_left_eq] at h
    obtain ⟨huv, hrest⟩ := token_inj (hpu u (List.mem_cons_self ..)) (hpv v (List.mem_cons_self ..))
      (stops_fill hl us hs) (stops_fill hl vs ht) h
    obtain ⟨rfl, hst⟩ := ih (Nat.succ.inj hu) (Nat.succ.inj hv)
      (fun x hx => hpu x (List.mem_cons_of_mem _ hx))
      (fun x hx => hpv x (List.mem_cons_of_mem _ hx))
      (fun l hx => hl l (List.mem_cons_of_mem _ hx)) hrest
    exact ⟨congrArg (· :: us) (String.toList_inj.mp huv), hst⟩

theorem toList_decimal (x : UInt64) : (toString x).toList = Nat.toDigits 10 x.toNat :=
  Nat.toList_repr

theorem decimal_inj {x y : UInt64} (h : toString x = toString y) : x = y := by
  have hd := congrArg String.toList h
  rw [toList_decimal, toList_decimal] at hd
  have hn := congrArg (Nat.ofDigitChars 10 · 0) hd
  simp only [Nat.ofDigitChars_ten_toDigits] at hn
  exact UInt64.toNat_inj.mp hn

theorem isDigit_of_decimal {x : UInt64} {c : Char} (h : c ∈ (toString x).toList) :
    c.isDigit = true := by
  rw [toList_decimal] at h
  exact Nat.isDigit_of_mem_toDigits (by decide) (by decide) h

theorem Token.decimal {p : Char → Bool} (hp : ∀ c, c.isDigit = true → p c = true) (x : UInt64) :
    Token p (toString x) :=
  fun c hc => hp c (isDigit_of_decimal hc)

theorem Token.append {p : Char → Bool} {s t : String} (hs : Token p s) (ht : Token p t) :
    Token p (s ++ t) := by
  intro c hc
  rw [String.toList_append] at hc
  exact (List.mem_append.mp hc).elim (hs c) (ht c)

end Text

end TensorUnit
