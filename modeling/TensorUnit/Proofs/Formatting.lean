import TensorUnit.Proofs.Tokens
import TensorUnit.Tcu.Text
import TensorUnit.Vta.Text

namespace TensorUnit

namespace Tcu

open Text

def inWord (c : Char) : Bool :=
  c ≠ ' '

theorem inWord_of_isDigit (c : Char) (h : c.isDigit = true) : inWord c = true := by
  refine decide_eq_true ?_
  rintro rfl
  exact absurd h (by decide)

theorem StridedAddress.text_eq (a : StridedAddress) :
    a.text.toList = (toString a.address).toList ++
      (if a.stride = 0 then [] else ':' :: (toString a.stride).toList) := by
  rw [StridedAddress.text]
  split <;> simp

theorem StridedAddress.text_inj {a b : StridedAddress} (h : a.text = b.text) : a = b := by
  have htoken : ∀ x : UInt64, ∀ c ∈ (toString x).toList, c.isDigit = true :=
    fun _ _ => isDigit_of_decimal
  have hstops : ∀ c : StridedAddress,
      Stops Char.isDigit (if c.stride = 0 then [] else ':' :: (toString c.stride).toList) := by
    intro c
    split
    · trivial
    · exact (by decide : Char.isDigit ':' = false)
  have hlist := congrArg String.toList h
  rw [a.text_eq, b.text_eq] at hlist
  obtain ⟨haddress, hstride⟩ := token_inj (htoken _) (htoken _) (hstops a) (hstops b) hlist
  have haddress := decimal_inj (String.toList_inj.mp haddress)
  obtain ⟨address, stride⟩ := a
  obtain ⟨address', stride'⟩ := b
  dsimp only at haddress hstride
  subst haddress
  by_cases ha : stride = 0 <;> by_cases hb : stride' = 0
  · rw [ha, hb]
  · rw [if_pos ha, if_neg hb] at hstride
    cases hstride
  · rw [if_neg ha, if_pos hb] at hstride
    cases hstride
  · rw [if_neg ha, if_neg hb] at hstride
    rw [decimal_inj (String.toList_inj.mp (List.cons.inj hstride).2)]

theorem StridedAddress.token_text (a : StridedAddress) : Token inWord a.text := by
  have hdecimal := Token.decimal inWord_of_isDigit
  intro c hc
  rw [a.text_eq] at hc
  rcases List.mem_append.mp hc with hc | hc
  · exact hdecimal a.address c hc
  · split at hc
    · cases hc
    · rcases List.mem_cons.mp hc with rfl | hc
      · decide
      · exact hdecimal a.stride c hc

namespace Instruction

def head : Instruction → String
  | matMul accumulate zeroes .. =>
    "matmul" ++ (if accumulate then ".acc" else "") ++ if zeroes then ".zeroes" else ""
  | loadWeights zeroes .. => "loadweights" ++ if zeroes then ".zeroes" else ""
  | instr => instr.opcode.mnemonic

def labels : Instruction → List String
  | noOp => []
  | matMul .. => [" local=", " acc=", " size="]
  | dataMove .. => [" ", " local=", " addr=", " size="]
  | loadWeights .. => [" local=", " size="]
  | configure .. => [" "]

def items : Instruction → List String
  | noOp => []
  | matMul _ _ scratchpad accumulator size =>
    [scratchpad.text, accumulator.text, toString size]
  | dataMove flag scratchpad address size =>
    [flag.mnemonic, scratchpad.text, address.text, toString size]
  | loadWeights _ scratchpad size => [scratchpad.text, toString size]
  | configure register value => [register.name ++ "=" ++ toString value]

theorem text_eq_fill (instr : Instruction) :
    instr.text.toList = fill ("" :: instr.labels) (instr.head :: instr.items) := by
  cases instr <;>
    simp [text, opcode, Opcode.mnemonic, head, labels, items, fill, String.toList_append]

theorem token_head (instr : Instruction) : Token inWord instr.head := by
  cases instr with
  | noOp => decide
  | matMul accumulate zeroes scratchpad accumulator size =>
    have hwords : ∀ accumulate zeroes : Bool, Token inWord ("matmul" ++
        (if accumulate then ".acc" else "") ++ if zeroes then ".zeroes" else "") := by decide
    exact hwords accumulate zeroes
  | dataMove flag scratchpad address size => exact (by decide : Token inWord "datamove")
  | loadWeights zeroes scratchpad size =>
    have hwords : ∀ zeroes : Bool,
        Token inWord ("loadweights" ++ if zeroes then ".zeroes" else "") := by decide
    exact hwords zeroes
  | configure register value => exact (by decide : Token inWord "configure")

theorem token_items (instr : Instruction) : ∀ item ∈ instr.items, Token inWord item := by
  have hdecimal := Token.decimal inWord_of_isDigit
  cases instr with
  | noOp => simp [items]
  | matMul accumulate zeroes scratchpad accumulator size =>
    simp [items, scratchpad.token_text, accumulator.token_text, hdecimal]
  | dataMove flag scratchpad address size =>
    have hflag : Token inWord flag.mnemonic := by cases flag <;> decide
    simp [items, scratchpad.token_text, address.token_text, hdecimal, hflag]
  | loadWeights zeroes scratchpad size => simp [items, scratchpad.token_text, hdecimal]
  | configure register value =>
    have hname : Token inWord (register.name ++ "=") := by cases register <;> decide
    simp [items, hname.append (hdecimal value)]

theorem closes_labels (instr : Instruction) : ∀ label ∈ instr.labels, Closes inWord label := by
  cases instr <;> simp [labels, Closes, Stops, inWord]

theorem labels_eq_of_head {a b : Instruction} (h : a.head = b.head) : a.labels = b.labels := by
  have hfirst : ∀ instr : Instruction, instr.head.toList.head? = some (match instr with
      | noOp => 'n'
      | matMul .. => 'm'
      | dataMove .. => 'd'
      | loadWeights .. => 'l'
      | configure .. => 'c') := by
    intro instr
    cases instr <;> simp [head, opcode, Opcode.mnemonic]
  have hc := congrArg (fun s => s.toList.head?) h
  simp only [hfirst, Option.some.injEq] at hc
  cases a <;> cases b <;> first | rfl | cases hc

theorem matMul_head_inj : ∀ accumulate zeroes accumulate' zeroes' : Bool,
    "matmul" ++ (if accumulate then ".acc" else "") ++ (if zeroes then ".zeroes" else "") =
      "matmul" ++ (if accumulate' then ".acc" else "") ++ (if zeroes' then ".zeroes" else "") →
    accumulate = accumulate' ∧ zeroes = zeroes' := by
  decide

theorem loadWeights_head_inj : ∀ zeroes zeroes' : Bool,
    "loadweights" ++ (if zeroes then ".zeroes" else "") =
      "loadweights" ++ (if zeroes' then ".zeroes" else "") → zeroes = zeroes' := by
  decide

theorem setting_inj {register register' : Register} {value value' : UInt64}
    (h : register.name ++ "=" ++ toString value = register'.name ++ "=" ++ toString value') :
    register = register' ∧ value = value' := by
  have hname : ∀ register : Register, Token (fun c => decide (c ≠ '=')) register.name := by
    intro register
    cases register <;> decide
  have hstops : ∀ cs : List Char, Stops (fun c => decide (c ≠ '=')) ('=' :: cs) := fun _ => rfl
  have hlist := congrArg String.toList h
  simp only [String.toList_append, List.append_assoc] at hlist
  obtain ⟨hn, hv⟩ := token_inj (hname _) (hname _) (hstops _) (hstops _) hlist
  refine ⟨?_, decimal_inj (String.toList_inj.mp (List.cons.inj hv).2)⟩
  have hn := String.toList_inj.mp hn
  cases register <;> cases register' <;> first | rfl | exact absurd hn (by decide)

theorem length_items (instr : Instruction) : instr.items.length = instr.labels.length := by
  cases instr <;> rfl

theorem items_eq_of_text {a b : Instruction} (h : a.text = b.text) :
    a.labels = b.labels ∧ a.head = b.head ∧ a.items = b.items := by
  have hlist := congrArg String.toList h
  rw [text_eq_fill, text_eq_fill] at hlist
  have hstops : ∀ instr : Instruction, Stops inWord (fill instr.labels instr.items) := by
    intro instr
    have hs : Stops inWord (fill instr.labels instr.items ++ []) :=
      stops_fill instr.closes_labels instr.items trivial
    rwa [List.append_nil] at hs
  have hhead : a.head = b.head := by
    simp only [fill, List.append_cancel_left_eq] at hlist
    exact String.toList_inj.mp
      (token_inj a.token_head b.token_head (hstops a) (hstops b) hlist).1
  have hlabels := labels_eq_of_head hhead
  refine ⟨hlabels, hhead, ?_⟩
  rw [hlabels, ← List.append_nil (fill _ (a.head :: _)),
    ← List.append_nil (fill _ (b.head :: _))] at hlist
  have htokens : ∀ instr : Instruction, ∀ word ∈ instr.head :: instr.items, Token inWord word :=
    fun instr => List.forall_mem_cons.mpr ⟨instr.token_head, instr.token_items⟩
  have hnil : Stops inWord [] := trivial
  have hwords := (fill_inj (by rw [List.length_cons, length_items, hlabels])
    (by rw [List.length_cons, length_items]) (htokens a) (htokens b) b.closes_labels
    hnil hnil hlist).1
  exact (List.cons.inj hwords).2

theorem text_injective {a b : Instruction} (h : a.text = b.text) : a = b := by
  obtain ⟨hlabels, hhead, hitems⟩ := items_eq_of_text h
  cases a with
  | noOp =>
    cases b with
    | noOp => rfl
    | _ => simp [labels] at hlabels
  | matMul accumulate zeroes scratchpad accumulator size =>
    cases b with
    | matMul accumulate' zeroes' scratchpad' accumulator' size' =>
      obtain ⟨rfl, rfl⟩ := matMul_head_inj _ _ _ _ hhead
      simp only [items, List.cons.injEq, and_true] at hitems
      obtain ⟨hs, ha, hn⟩ := hitems
      rw [StridedAddress.text_inj hs, StridedAddress.text_inj ha, decimal_inj hn]
    | _ => simp [labels] at hlabels
  | dataMove flag scratchpad address size =>
    cases b with
    | dataMove flag' scratchpad' address' size' =>
      simp only [items, List.cons.injEq, and_true] at hitems
      obtain ⟨hf, hs, ha, hn⟩ := hitems
      have hflag : flag = flag' := by
        cases flag <;> cases flag' <;> first | rfl | exact absurd hf (by decide)
      rw [hflag, StridedAddress.text_inj hs, StridedAddress.text_inj ha, decimal_inj hn]
    | _ => simp [labels] at hlabels
  | loadWeights zeroes scratchpad size =>
    cases b with
    | loadWeights zeroes' scratchpad' size' =>
      obtain rfl := loadWeights_head_inj _ _ hhead
      simp only [items, List.cons.injEq, and_true] at hitems
      rw [StridedAddress.text_inj hitems.1, decimal_inj hitems.2]
    | _ => simp [labels] at hlabels
  | configure register value =>
    cases b with
    | configure register' value' =>
      simp only [items, List.cons.injEq, and_true] at hitems
      obtain ⟨rfl, rfl⟩ := setting_inj hitems
      rfl
    | _ => simp [labels] at hlabels

end Instruction

end Tcu

namespace Vta

open Text

def inNumeral (c : Char) : Bool :=
  c.isDigit || c.isUpper

theorem token_decimal (x : UInt64) : Token inNumeral (toString x) :=
  Token.decimal (fun _ h => Bool.or_eq_true_iff.mpr (.inl h)) x

theorem token_padded (width n : Nat) : Token inNumeral (Hex.padded width n) := by
  have hdigit : ∀ d < 16, inNumeral (Nat.digitChar d).toUpper = true := by decide
  intro c hc
  rw [Hex.padded, String.toList_ofList, List.mem_map] at hc
  obtain ⟨b, hb, rfl⟩ := hc
  obtain ⟨d, hd, rfl⟩ := Hex.exists_digit_of_width hb
  exact hdigit d hd

theorem padded_inj {width : Nat} {x y : UInt64}
    (h : Hex.padded width x.toNat = Hex.padded width y.toNat) : x = y := by
  have hn := congrArg Hex.toNat? h
  rw [Hex.toNat?_padded, Hex.toNat?_padded, Option.some.injEq] at hn
  exact UInt64.toNat_inj.mp hn

def spaced (part : String) : List Char :=
  if part.isEmpty then [] else ' ' :: part.toList

theorem stops_spaced {p : Char → Bool} (hp : p ' ' = false) (part : String) :
    Stops p (spaced part) := by
  rw [spaced]
  split
  · trivial
  · exact hp

theorem spaced_inj {s t : String} (h : spaced s = spaced t) : s = t := by
  rw [spaced, spaced] at h
  split at h <;> split at h
  · rename_i hs ht
    rw [String.isEmpty_iff.mp hs, String.isEmpty_iff.mp ht]
  · cases h
  · cases h
  · exact String.toList_inj.mp (List.cons.inj h).2

theorem Instruction.text_eq (instr : Instruction) :
    instr.text.toList =
      instr.mnemonic.toList ++ (spaced instr.body ++ spaced instr.deps.text) := by
  rw [text, spaced, spaced]
  by_cases hb : instr.body.isEmpty <;> by_cases hd : instr.deps.text.isEmpty <;>
    simp [hb, hd]

theorem DepFlags.text_inj {a b : DepFlags} (h : a.text = b.text) : a = b := by
  have hall : ∀ p q r s p' q' r' s' : Bool,
      DepFlags.text ⟨p, q, r, s⟩ = DepFlags.text ⟨p', q', r', s'⟩ →
        DepFlags.mk p q r s = DepFlags.mk p' q' r' s' := by
    decide
  exact hall _ _ _ _ _ _ _ _ h

def MemOp.labels : List String :=
  [" dram=0x", " y=", " x=", " stride=", " pad=[", ",", ",", ","]

def MemOp.items (op : MemOp) : List String :=
  [Hex.padded 1 op.sramBase.toNat, Hex.padded 1 op.dramBase.toNat, toString op.ySize,
    toString op.xSize, toString op.xStride, toString op.yPad0, toString op.yPad1,
    toString op.xPad0, toString op.xPad1]

theorem MemOp.text_eq_fill (op : MemOp) (s : List Char) :
    op.text.toList ++ s = fill ("sram=0x" :: labels) op.items ++ ']' :: s := by
  delta text
  simp only [address, Hex.prefixedUpper, labels, items, fill, toString_string,
    String.toList_append, List.append_assoc, List.nil_append]
  rfl

theorem MemOp.length_items (op : MemOp) : op.items.length = labels.length + 1 := by
  simp only [items, labels, List.length_cons, List.length_nil]

theorem MemOp.token_items (op : MemOp) : ∀ item ∈ op.items, Token inNumeral item := by
  simp [items, token_decimal, token_padded]

theorem MemOp.closes_labels : ∀ label ∈ labels, Closes inNumeral label := by
  simp [labels, Closes, Stops, inNumeral]

theorem MemOp.text_inj {a b : MemOp}
    (h : a.text.toList ++ spaced a.deps.text = b.text.toList ++ spaced b.deps.text) : a = b := by
  have hstops : ∀ s : List Char, Stops inNumeral (']' :: s) := fun _ => rfl
  rw [a.text_eq_fill, b.text_eq_fill] at h
  obtain ⟨hitems, hdeps⟩ := fill_inj a.length_items b.length_items a.token_items b.token_items
    closes_labels (hstops _) (hstops _) h
  have hdeps := DepFlags.text_inj (spaced_inj (List.cons.inj hdeps).2)
  simp only [items, List.cons.injEq, and_true] at hitems
  obtain ⟨h0, h1, h2, h3, h4, h5, h6, h7, h8⟩ := hitems
  cases a
  cases b
  simp only at hdeps h0 h1 h2 h3 h4 h5 h6 h7 h8
  rw [hdeps, padded_inj h0, padded_inj h1, decimal_inj h2, decimal_inj h3, decimal_inj h4,
    decimal_inj h5, decimal_inj h6, decimal_inj h7, decimal_inj h8]

def opening (reset : Bool) : String :=
  (if reset then "reset " else "") ++ "uop=["

theorem opening_inj {r r' : Bool} {labels us vs : List String} {d d' : DepFlags}
    (hl : ∀ l ∈ labels, Closes inNumeral l) (hu : us.length = labels.length + 1)
    (hv : vs.length = labels.length + 1) (hpu : ∀ u ∈ us, Token inNumeral u)
    (hpv : ∀ v ∈ vs, Token inNumeral v)
    (h : fill (opening r :: labels) us ++ spaced d.text =
      fill (opening r' :: labels) vs ++ spaced d'.text) : r = r' ∧ us = vs ∧ d = d' := by
  have hreset : r = r' := by
    obtain ⟨u, us, rfl⟩ := List.exists_cons_of_length_eq_add_one hu
    obtain ⟨v, vs, rfl⟩ := List.exists_cons_of_length_eq_add_one hv
    cases r <;> cases r' <;> simp [opening, fill] at h ⊢
  rw [hreset] at h
  have hstops := stops_spaced (p := inNumeral) rfl
  obtain ⟨hitems, hdeps⟩ := fill_inj hu hv hpu hpv hl (hstops _) (hstops _) h
  exact ⟨hreset, hitems, DepFlags.text_inj (spaced_inj hdeps)⟩

def GemmOp.labels : List String :=
  [",", ") iter=", "x", " dst=", ",", " src=", ",", " wgt=", ","]

def GemmOp.items (op : GemmOp) : List String :=
  [toString op.uopBegin, toString op.uopEnd, toString op.iterOut, toString op.iterIn,
    toString op.dstFactorOut, toString op.dstFactorIn, toString op.srcFactorOut,
    toString op.srcFactorIn, toString op.wgtFactorOut, toString op.wgtFactorIn]

theorem GemmOp.text_eq_fill (op : GemmOp) :
    op.text.toList = fill (opening op.reset :: labels) op.items := by
  simp [text, opening, labels, items, fill]

theorem GemmOp.length_items (op : GemmOp) : op.items.length = labels.length + 1 := by
  simp only [items, labels, List.length_cons, List.length_nil]

theorem GemmOp.token_items (op : GemmOp) : ∀ item ∈ op.items, Token inNumeral item := by
  simp [items, token_decimal]

theorem GemmOp.closes_labels : ∀ label ∈ labels, Closes inNumeral label := by
  simp [labels, Closes, Stops, inNumeral]

theorem GemmOp.text_inj {a b : GemmOp}
    (h : a.text.toList ++ spaced a.deps.text = b.text.toList ++ spaced b.deps.text) : a = b := by
  rw [a.text_eq_fill, b.text_eq_fill] at h
  obtain ⟨hreset, hitems, hdeps⟩ :=
    opening_inj closes_labels a.length_items b.length_items a.token_items b.token_items h
  simp only [items, List.cons.injEq, and_true] at hitems
  obtain ⟨h0, h1, h2, h3, h4, h5, h6, h7, h8, h9⟩ := hitems
  cases a
  cases b
  simp only at hreset hdeps h0 h1 h2 h3 h4 h5 h6 h7 h8 h9
  rw [hreset, hdeps, decimal_inj h0, decimal_inj h1, decimal_inj h2, decimal_inj h3,
    decimal_inj h4, decimal_inj h5, decimal_inj h6, decimal_inj h7, decimal_inj h8, decimal_inj h9]

def AluOp.labels : List String :=
  [",", ") iter=", "x", " dst=", ",", " src=", ","]

def AluOp.items (op : AluOp) : List String :=
  [toString op.uopBegin, toString op.uopEnd, toString op.iterOut, toString op.iterIn,
    toString op.dstFactorOut, toString op.dstFactorIn, toString op.srcFactorOut,
    toString op.srcFactorIn]

theorem AluOp.text_eq_fill (op : AluOp) :
    op.text.toList = fill (opening op.reset :: labels) op.items := by
  simp [text, opening, labels, items, fill]

theorem AluOp.length_items (op : AluOp) : op.items.length = labels.length + 1 := by
  simp only [items, labels, List.length_cons, List.length_nil]

theorem AluOp.token_items (op : AluOp) : ∀ item ∈ op.items, Token inNumeral item := by
  simp [items, token_decimal]

theorem AluOp.closes_labels : ∀ label ∈ labels, Closes inNumeral label := by
  simp [labels, Closes, Stops, inNumeral]

/-- The text of an operation says all of it but the immediate. -/
theorem AluOp.text_inj {a b : AluOp}
    (h : a.text.toList ++ spaced a.deps.text = b.text.toList ++ spaced b.deps.text) :
    a = { b with imm := a.imm } := by
  rw [a.text_eq_fill, b.text_eq_fill] at h
  obtain ⟨hreset, hitems, hdeps⟩ :=
    opening_inj closes_labels a.length_items b.length_items a.token_items b.token_items h
  simp only [items, List.cons.injEq, and_true] at hitems
  obtain ⟨h0, h1, h2, h3, h4, h5, h6, h7⟩ := hitems
  cases a
  cases b
  simp only at hreset hdeps h0 h1 h2 h3 h4 h5 h6 h7
  rw [hreset, hdeps, decimal_inj h0, decimal_inj h1, decimal_inj h2, decimal_inj h3,
    decimal_inj h4, decimal_inj h5, decimal_inj h6, decimal_inj h7]

theorem AluOp.immediate_inj {a b : AluOp}
    (h : (toString a.imm).toList ++ ' ' :: (a.text.toList ++ spaced a.deps.text) =
      (toString b.imm).toList ++ ' ' :: (b.text.toList ++ spaced b.deps.text)) : a = b := by
  have hstops : ∀ s : List Char, Stops inNumeral (' ' :: s) := fun _ => rfl
  obtain ⟨himm, hrest⟩ := token_inj (token_decimal a.imm) (token_decimal b.imm)
    (hstops _) (hstops _) h
  rw [AluOp.text_inj (List.cons.inj hrest).2, decimal_inj (String.toList_inj.mp himm)]

theorem AluOp.head?_text (op : AluOp) :
    op.text.toList.head? = some (if op.reset then 'r' else 'u') := by
  rw [op.text_eq_fill, items, fill, opening]
  cases op.reset <;> simp

theorem MemOp.head?_text (op : MemOp) : op.text.toList.head? = some 's' := by
  rw [← List.append_nil op.text.toList, op.text_eq_fill]
  simp [items, fill]

theorem GemmOp.head?_text (op : GemmOp) :
    op.text.toList.head? = some (if op.reset then 'r' else 'u') := by
  rw [op.text_eq_fill, items, fill, opening]
  cases op.reset <;> simp

theorem spaced_of_head? {part : String} {c : Char} (h : part.toList.head? = some c) :
    spaced part = ' ' :: part.toList := by
  rw [spaced, if_neg]
  intro hpart
  rw [String.isEmpty_iff.mp hpart] at h
  cases h

namespace Instruction

/-- What the text of an instruction shows: the immediate of an ALU instruction that does not use it
is not shown. -/
def shown : Instruction → Instruction
  | alu func false op => alu func false { op with imm := 0 }
  | instr => instr

theorem text_shown (instr : Instruction) : instr.shown.text = instr.text := by
  cases instr with
  | alu func useImm op => cases useImm <;> rfl
  | _ => rfl

def operands (useImm : Bool) (op : AluOp) : List Char :=
  (if useImm then " imm=".toList ++ (toString op.imm).toList else [])
    ++ ' ' :: (op.text.toList ++ spaced op.deps.text)

theorem operands_inj {u u' : Bool} {op op' : AluOp} (h : operands u op = operands u' op') :
    u = u' ∧ op = if u then op' else { op' with imm := op.imm } := by
  -- An immediate opens with another letter than what follows where there is none.
  have hfirst : ∀ op : AluOp, ∀ cs : List Char,
      op.text.toList ++ spaced op.deps.text ≠ 'i' :: cs := by
    intro op cs hop
    have hhead := op.head?_text
    cases ht : op.text.toList with
    | nil =>
      rw [ht] at hhead
      cases hhead
    | cons c rest =>
      rw [ht] at hhead hop
      rw [(List.cons.inj hop).1] at hhead
      cases hr : op.reset <;> simp [hr] at hhead
  cases u <;> cases u'
  · exact ⟨rfl, AluOp.text_inj (List.cons.inj h).2⟩
  · simp only [operands, Bool.false_eq_true, if_false, if_true, List.nil_append] at h
    exact absurd (List.cons.inj h).2 (hfirst op _)
  · simp only [operands, Bool.false_eq_true, if_false, if_true, List.nil_append] at h
    exact absurd (List.cons.inj h).2.symm (hfirst op' _)
  · simp only [operands, if_true, List.append_assoc, List.append_cancel_left_eq] at h
    exact ⟨rfl, AluOp.immediate_inj h⟩

theorem alu_inj {func func' : AluFunc} {u u' : Bool} {op op' : AluOp}
    (h : spaced (alu func u op).body ++ spaced (alu func u op).deps.text =
      spaced (alu func' u' op').body ++ spaced (alu func' u' op').deps.text) :
    func = func' ∧ operands u op = operands u' op' := by
  have htoken : ∀ func : AluFunc, ∀ c ∈ func.key.toList, c.isAlpha = true := by
    intro func
    cases func <;> simp [AluFunc.key]
  have hstops : ∀ (u : Bool) (op : AluOp), Stops Char.isAlpha (operands u op) := by
    intro u op
    cases u <;> rfl
  have hbody : ∀ (func : AluFunc) (u : Bool) (op : AluOp),
      spaced (alu func u op).body ++ spaced (alu func u op).deps.text =
        ' ' :: (func.key.toList ++ operands u op) := by
    intro func u op
    have hspaced : spaced (alu func u op).body = ' ' :: (alu func u op).body.toList := by
      have hhead : ∃ c, (alu func u op).body.toList.head? = some c := by
        cases func <;> simp [body, AluFunc.key]
      obtain ⟨c, hc⟩ := hhead
      exact spaced_of_head? hc
    rw [hspaced]
    cases u <;> simp [body, deps, operands]
  rw [hbody, hbody] at h
  obtain ⟨hfunc, hrest⟩ := token_inj (htoken func) (htoken func') (hstops u op) (hstops u' op')
    (List.cons.inj h).2
  refine ⟨?_, hrest⟩
  have hfunc := String.toList_inj.mp hfunc
  cases func <;> cases func' <;> first | rfl | exact absurd hfunc (by decide)

theorem shown_eq_of_text {a b : Instruction} (h : a.text = b.text) : a.shown = b.shown := by
  have hlist := congrArg String.toList h
  rw [text_eq, text_eq] at hlist
  have hstops : ∀ instr : Instruction,
      Stops Char.isAlpha (spaced instr.body ++ spaced instr.deps.text) := by
    intro instr
    rw [spaced]
    split
    · exact stops_spaced rfl _
    · rfl
  have htoken : ∀ instr : Instruction, ∀ c ∈ instr.mnemonic.toList, c.isAlpha = true := by
    intro instr
    cases instr <;> simp [mnemonic]
  obtain ⟨hmnemonic, hrest⟩ := token_inj (htoken a) (htoken b) (hstops a) (hstops b) hlist
  have hmnemonic := String.toList_inj.mp hmnemonic
  cases a with
  | load op =>
    cases b with
    | load op' =>
      simp only [body, deps, spaced_of_head? (MemOp.head?_text _)] at hrest
      rw [MemOp.text_inj (List.cons.inj hrest).2]
    | _ => simp [mnemonic] at hmnemonic
  | store op =>
    cases b with
    | store op' =>
      simp only [body, deps, spaced_of_head? (MemOp.head?_text _)] at hrest
      rw [MemOp.text_inj (List.cons.inj hrest).2]
    | _ => simp [mnemonic] at hmnemonic
  | gemm op =>
    cases b with
    | gemm op' =>
      simp only [body, deps, spaced_of_head? (GemmOp.head?_text _)] at hrest
      rw [GemmOp.text_inj (List.cons.inj hrest).2]
    | _ => simp [mnemonic] at hmnemonic
  | alu func useImm op =>
    cases b with
    | alu func' useImm' op' =>
      obtain ⟨hfunc, htail⟩ := alu_inj hrest
      obtain ⟨rfl, hop⟩ := operands_inj htail
      rw [hfunc]
      cases useImm
      · rw [hop]
        rfl
      · rw [hop]
        rfl
    | _ => simp [mnemonic] at hmnemonic
  | addi op =>
    cases b with
    | addi op' =>
      have hbody : ∀ op : AluOp, (addi op).body.toList =
          "imm=".toList ++ ((toString op.imm).toList ++ ' ' :: op.text.toList) := by
        intro op
        simp [body]
      have hspaced : ∀ op : AluOp, spaced (addi op).body = ' ' :: (addi op).body.toList := by
        intro op
        apply spaced_of_head?
        rw [hbody]
        rfl
      rw [hspaced, hspaced, hbody, hbody] at hrest
      simp only [List.cons_append, List.append_assoc, List.cons.injEq, true_and,
        List.append_cancel_left_eq] at hrest
      rw [AluOp.immediate_inj hrest]
    | _ => simp [mnemonic] at hmnemonic
  | finish deps =>
    cases b with
    | finish deps' =>
      have hdeps : deps = deps' := DepFlags.text_inj (spaced_inj hrest)
      rw [hdeps]
    | _ => simp [mnemonic] at hmnemonic
  | nop deps =>
    cases b with
    | nop deps' =>
      have hdeps : deps = deps' := DepFlags.text_inj (spaced_inj hrest)
      rw [hdeps]
    | _ => simp [mnemonic] at hmnemonic

theorem text_eq_iff {a b : Instruction} : a.text = b.text ↔ a.shown = b.shown := by
  constructor
  · exact shown_eq_of_text
  · intro h
    rw [← a.text_shown, ← b.text_shown, h]

end Instruction

end Vta

/-- No two TCU instructions share a text, and two VTA instructions do where the immediates of ALU
instructions that do not use them are all that they differ in. -/
theorem text_unambiguous :
    (∀ a b : Tcu.Instruction, a.text = b.text ↔ a = b) ∧
      ∀ a b : Vta.Instruction, a.text = b.text ↔ a.shown = b.shown := by
  refine ⟨fun a b => ⟨Tcu.Instruction.text_injective, congrArg _⟩, fun a b => ?_⟩
  exact Vta.Instruction.text_eq_iff

end TensorUnit
