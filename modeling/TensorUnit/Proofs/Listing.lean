import TensorUnit.Listing
import TensorUnit.Proofs.Tcu.RoundTrip
import TensorUnit.Proofs.Text
import TensorUnit.Proofs.Vta.RoundTrip

namespace TensorUnit

open Text (OneLine)

section Ends

variable {α β ε δ : Type} {Q : α → Prop} {R : β → Prop} {E : ε → Prop} {D : δ → Prop}

def Ends (Q : α → Prop) (E : ε → Prop) : Except ε α → Prop
  | .ok a => Q a
  | .error e => E e

theorem Ends.bind {x : Except ε α} {f : α → Except ε β} (hx : Ends Q E x)
    (hf : ∀ a, Q a → Ends R E (f a)) : Ends R E (x >>= f) := by
  cases x with
  | error e => exact hx
  | ok a => exact hf a hx

theorem Ends.mapError {x : Except ε α} {g : ε → δ} (hx : Ends Q E x) (hg : ∀ e, E e → D (g e)) :
    Ends Q D (x.mapError g) := by
  cases x with
  | error e => exact hg e hx
  | ok a => exact hx

end Ends

namespace EncodeError

def quoted : EncodeError → List String
  | spec error => [error.message]
  | unknownField field | invalidWidth field _ | valueOutOfRange field _ _ => [field]
  | valueTooWide table key _ _ => [table, key]
  | _ => []

def Plain (error : EncodeError) : Prop :=
  OneLine error.message

theorem plain {error : EncodeError} (h : ∀ text ∈ error.quoted, OneLine text) : error.Plain := by
  simp only [OneLine] at h
  unfold Plain OneLine message
  cases error <;> simp [quoted] at h ⊢ <;> simp [h]

end EncodeError

namespace DecodeError

def quoted : DecodeError → List String
  | encode error => [error.message]
  | spec error => [error.message]
  | invalidEncoding (.memType mnemonic _ _) => [mnemonic]
  | invalidEncoding (.busyFinish field) => [field]
  | _ => []

def Plain (error : DecodeError) : Prop :=
  OneLine error.message

theorem plain {error : DecodeError} (h : ∀ text ∈ error.quoted, OneLine text) : error.Plain := by
  simp only [OneLine] at h
  unfold Plain OneLine message
  cases error with
  | invalidEncoding fault =>
    unfold FormatFault.message
    cases fault <;> simp [quoted] at h ⊢ <;> simp [h]
  | _ => simp [quoted] at h ⊢ <;> simp [h]

theorem ends_lift {α : Type} {Q : α → Prop} {x : Except EncodeError α}
    (h : Ends Q EncodeError.Plain x) : Ends Q Plain (liftM x : Except DecodeError α) :=
  h.mapError fun _ he => plain (List.forall_mem_singleton.mpr he)

end DecodeError

def FieldSet.Named (fields : FieldSet) : Prop :=
  ∀ f ∈ fields, OneLine f.name

theorem FieldSet.ends_push {set : FieldSet} (hs : set.Named) {name : String} (hn : OneLine name)
    (width value : Nat) : Ends Named EncodeError.Plain (set.push name width value) := by
  unfold push
  dsimp only
  split
  · exact EncodeError.plain (List.forall_mem_singleton.mpr hn)
  · split
    · exact List.forall_mem_append.mpr ⟨hs, List.forall_mem_singleton.mpr hn⟩
    · exact EncodeError.plain (List.forall_mem_singleton.mpr hn)

theorem FieldSet.ends_ofFields {fields : List Field} (h : Named fields) :
    Ends Named EncodeError.Plain (ofFields fields) := by
  suffices hfold : ∀ set : FieldSet, set.Named → Ends Named EncodeError.Plain
      (fields.foldlM (fun set f => push set f.name f.width f.value) set) from
    hfold [] (List.forall_mem_nil _)
  induction fields with
  | nil => exact fun set hs => hs
  | cons f fs ih =>
    intro set hs
    obtain ⟨hf, hfs⟩ := List.forall_mem_cons.mp h
    rw [List.foldlM_cons]
    exact (ends_push hs hf _ _).bind (ih hfs)

namespace Word

theorem ends_extract (word : List UInt8) (offset width : Nat) :
    Ends (fun _ => True) EncodeError.Plain (extract word offset width) := by
  unfold extract
  dsimp only
  split
  · exact EncodeError.plain (List.forall_mem_singleton.mpr (by simp [OneLine]))
  · split
    · exact EncodeError.plain (List.forall_mem_nil _)
    · split
      · exact EncodeError.plain (List.forall_mem_nil _)
      · split
        · trivial
        · split
          · exact EncodeError.plain (List.forall_mem_nil _)
          · trivial

theorem ends_unpack (word : List UInt8) {template : FieldSet} (h : template.Named) :
    Ends FieldSet.Named EncodeError.Plain (unpack word template) := by
  suffices hfrom : ∀ (offset : Nat) (done : FieldSet), done.Named →
      Ends FieldSet.Named EncodeError.Plain (unpackFrom word offset done template) from
    hfrom 0 [] (List.forall_mem_nil _)
  induction template with
  | nil => exact fun _ done hd => hd
  | cons f fs ih =>
    intro offset done hd
    obtain ⟨hf, hfs⟩ := List.forall_mem_cons.mp h
    rw [unpackFrom]
    exact (ends_extract word offset f.width).bind fun value _ =>
      (FieldSet.ends_push hd hf _ _).bind fun next hn => ih hfs _ next hn

end Word

namespace Tcu

theorem StridedAddress.oneLine_text (a : StridedAddress) : OneLine a.text := by
  unfold text
  split <;> simp [OneLine]

theorem Instruction.oneLine_text (instr : Instruction) : OneLine instr.text := by
  have haddress : ∀ a : StridedAddress, '\n' ∉ a.text.toList := StridedAddress.oneLine_text
  cases instr with
  | noOp => decide
  | matMul accumulate zeroes scratchpad accumulator size =>
    cases accumulate <;> cases zeroes <;>
      simp [OneLine, text, opcode, Opcode.mnemonic, haddress]
  | dataMove flag scratchpad address size =>
    cases flag <;> simp [OneLine, text, opcode, Opcode.mnemonic, MoveFlag.mnemonic, haddress]
  | loadWeights zeroes scratchpad size =>
    cases zeroes <;> simp [OneLine, text, opcode, Opcode.mnemonic, haddress]
  | configure register value =>
    cases register <;> simp [OneLine, text, opcode, Opcode.mnemonic, Register.name]

theorem ends_template (layout : Layout) (opcode : Opcode) :
    Ends FieldSet.Named EncodeError.Plain (template layout opcode) := by
  have hnamed : FieldSet.Named (blank layout opcode) := by
    cases opcode <;> simp [FieldSet.Named, blank, lowFields, OneLine]
  have he : template layout opcode = FieldSet.ofFields (blank layout opcode) := by
    cases opcode <;> rfl
  rw [he]
  exact FieldSet.ends_ofFields hnamed

theorem ends_ofFields (set : FieldSet) (opcode : Opcode) :
    Ends (fun _ => True) DecodeError.Plain (Instruction.ofFields set opcode) := by
  cases opcode with
  | noOp | matMul | loadWeights => trivial
  | simd => exact DecodeError.plain (List.forall_mem_nil _)
  | dataMove | configure =>
    rw [Instruction.ofFields]
    split
    · trivial
    · exact DecodeError.plain (List.forall_mem_nil _)

theorem ends_decode (layout : Layout) (word : List UInt8) :
    Ends (fun _ => True) DecodeError.Plain (decode layout word) := by
  unfold decode
  split
  · exact DecodeError.plain (List.forall_mem_nil _)
  · refine Ends.bind (DecodeError.ends_lift (Word.ends_extract ..)) fun code _ => ?_
    split
    · exact DecodeError.plain (List.forall_mem_nil _)
    · exact Ends.bind (DecodeError.ends_lift (ends_template ..)) fun template ht =>
        Ends.bind (DecodeError.ends_lift (Word.ends_unpack word ht)) fun set _ =>
          ends_ofFields set _

end Tcu

namespace Vta

theorem DepFlags.oneLine_text (deps : DepFlags) : OneLine deps.text := by
  obtain ⟨a, b, c, d⟩ := deps
  cases a <;> cases b <;> cases c <;> cases d <;> decide

theorem MemOp.oneLine_text (op : MemOp) : OneLine op.text := by
  unfold OneLine text address
  simp

theorem GemmOp.oneLine_text (op : GemmOp) : OneLine op.text := by
  unfold OneLine text
  cases op.reset <;> simp

theorem AluOp.oneLine_text (op : AluOp) : OneLine op.text := by
  unfold OneLine text
  cases op.reset <;> simp

theorem Instruction.oneLine_body (instr : Instruction) : OneLine instr.body := by
  have halu : ∀ op : AluOp, '\n' ∉ op.text.toList := AluOp.oneLine_text
  cases instr with
  | load op | store op => exact op.oneLine_text
  | gemm op => exact op.oneLine_text
  | alu func useImm op =>
    cases func <;> cases useImm <;> simp [OneLine, body, AluFunc.key, halu]
  | addi op => simp [OneLine, body, halu]
  | finish _ | nop _ => simp [OneLine, body]

theorem Instruction.oneLine_text (instr : Instruction) : OneLine instr.text := by
  refine OneLine.intercalate (by decide) (List.forall_mem_cons.mpr ⟨?_, fun part hp => ?_⟩)
  · cases instr <;> simp [OneLine, mnemonic]
  · have hm := (List.mem_filter.mp hp).1
    simp only [List.mem_cons, List.not_mem_nil, or_false] at hm
    obtain rfl | rfl := hm
    · exact instr.oneLine_body
    · exact instr.deps.oneLine_text

theorem FieldName.oneLine_text (name : FieldName) : OneLine name.text := by
  cases name <;> decide

theorem Encoder.ends_template (e : Encoder) (shape : Shape) :
    Ends FieldSet.Named EncodeError.Plain (e.template shape) := by
  apply FieldSet.ends_ofFields
  intro f hf
  obtain ⟨slot, _, rfl⟩ := List.mem_map.mp hf
  exact slot.name.oneLine_text

theorem ends_decodeMemory (set : FieldSet) {mnemonic : String} (h : OneLine mnemonic)
    (memType : UInt64) (kind : MemOp → Instruction) :
    Ends (fun _ => True) DecodeError.Plain (decodeMemory set mnemonic memType kind) := by
  unfold decodeMemory
  split
  · trivial
  · exact DecodeError.plain (List.forall_mem_singleton.mpr h)

theorem ends_decodeGemm (codes : Codes) (opcode : UInt64) {set : FieldSet} (h : set.Named) :
    Ends (fun _ => True) DecodeError.Plain (decodeGemm codes opcode set) := by
  unfold decodeGemm
  split
  · rename_i field hb
    split
    · have hfield := h field (List.mem_of_find?_eq_some hb)
      exact DecodeError.plain (List.forall_mem_singleton.mpr hfield)
    · trivial
  · split <;> trivial

theorem ends_decodeAlu (codes : Codes) (set : FieldSet) :
    Ends (fun _ => True) DecodeError.Plain (decodeAlu codes set) := by
  unfold decodeAlu
  split
  · exact DecodeError.plain (List.forall_mem_nil _)
  · dsimp only
    split <;> trivial

theorem ends_ofFields (codes : Codes) (opcode : UInt64) {set : FieldSet} (h : set.Named)
    (shape : Shape) :
    Ends (fun _ => True) DecodeError.Plain (Instruction.ofFields codes opcode set shape) := by
  cases shape with
  | memory =>
    rw [Instruction.ofFields]
    split
    · exact ends_decodeMemory set (by decide) _ _
    · exact ends_decodeMemory set (by decide) _ _
  | gemm => exact ends_decodeGemm codes opcode h
  | alu => exact ends_decodeAlu codes set

theorem Isa.ends_width (isa : Isa) (cls : WidthClass) :
    Ends (fun _ => True) (fun error => OneLine error.message) (isa.width cls) := by
  have hkey : '\n' ∉ cls.key.toList := by cases cls <;> decide
  unfold Isa.width SpecError.message
  split
  · simp [Ends, OneLine, hkey]
  · split
    · simp [Ends, OneLine, hkey]
    · trivial

theorem ends_decode (e : Encoder) (word : List UInt8) :
    Ends (fun _ => True) DecodeError.Plain (e.decode word) := by
  unfold Encoder.decode
  split
  · exact DecodeError.plain (List.forall_mem_nil _)
  · refine Ends.bind ((e.isa.ends_width .opcode).mapError fun error he =>
      DecodeError.plain (List.forall_mem_singleton.mpr he)) fun width _ => ?_
    refine Ends.bind (DecodeError.ends_lift (Word.ends_extract ..)) fun code _ => ?_
    dsimp only
    split
    · exact DecodeError.plain (List.forall_mem_nil _)
    · exact Ends.bind (DecodeError.ends_lift (e.ends_template _)) fun template ht =>
        Ends.bind (DecodeError.ends_lift (Word.ends_unpack word ht)) fun set hs =>
          ends_ofFields _ _ hs _

end Vta

namespace Listing

def wordAt (size : Nat) (stream : List UInt8) (i : Nat) : List UInt8 :=
  (stream.drop (i * size)).take size

def head (family : String) (count wordBits : Nat) : List String :=
  [s!"; {family} disassembly", s!"; {count} instructions ({wordBits}-bit words)", ""]

/-- The offset of a word, the digits of the word, and what is noted of it. -/
def row (offset : Nat) (word : List UInt8) (note : String) : String :=
  "0x" ++ Text.Hex.padded 6 offset ++ ":  " ++ Text.Hex.ofWord word ++ "  " ++ note

def table (family : String) (wordBits wordBytes : Nat) (note : List UInt8 → String)
    (stream : List UInt8) : List String :=
  head family (stream.length / wordBytes) wordBits ++
    (List.range (stream.length / wordBytes)).map fun i =>
      row (i * wordBytes) (wordAt wordBytes stream i) (note (wordAt wordBytes stream i))

/-- There is a listing for every stream of whole words, and its lines are those of the table. -/
structure Faithful {ι : Type} (family : String) (wordBits wordBytes : Nat)
    (decode : List UInt8 → Except DecodeError ι) (text : ι → String)
    (list : List UInt8 → Except DecodeError String) : Prop where
  pos : 0 < wordBytes
  exists_iff : ∀ stream, (∃ listing, list stream = .ok listing) ↔ stream.length % wordBytes = 0
  lines : ∀ stream listing, list stream = .ok listing →
    listing = Text.unlines
      (table family wordBits wordBytes (fun word => describe text (decode word)) stream) ∧
    Text.lines listing =
      table family wordBits wordBytes (fun word => describe text (decode word)) stream

variable {family : String} {wordBits wordBytes : Nat} {note : List UInt8 → String}

theorem oneLine_row {note : String} (h : OneLine note) (offset : Nat) (word : List UInt8) :
    OneLine (row offset word note) := by
  have hfeed : '\n' ∉ note.toList := h
  have hoffset := Text.feed_notMem_prefixedUpper 6 offset
  rw [Text.Hex.prefixedUpper] at hoffset
  simp only [OneLine, row, String.toList_append, List.mem_append, not_or] at hoffset ⊢
  simp [hfeed, hoffset]

theorem oneLine_table (hf : OneLine family) (hn : ∀ word, OneLine (note word))
    (stream : List UInt8) : ∀ text ∈ table family wordBits wordBytes note stream, OneLine text := by
  have hfeed : '\n' ∉ family.toList := hf
  refine List.forall_mem_append.mpr ⟨by simp [head, OneLine, hfeed], ?_⟩
  rw [List.forall_mem_map]
  exact fun _ _ => oneLine_row (hn _) _ _

theorem lines_eq (stream : List UInt8) :
    lines note wordBytes (Bytes.words wordBytes stream) =
      ((List.range (stream.length / wordBytes)).map fun i =>
        row (i * wordBytes) (wordAt wordBytes stream i) (note (wordAt wordBytes stream i))).map
          (· ++ "\n") := by
  rw [lines, Bytes.words, Bytes.pieces_eq]
  apply List.ext_getElem (by simp)
  intro i h1 h2
  simp [line, row, wordAt, Text.Hex.prefixedUpper]

theorem ofStream_eq_ok {stream : List UInt8} (h0 : 0 < wordBytes)
    (hm : stream.length % wordBytes = 0) :
    ofStream family wordBits wordBytes note stream =
      .ok (Text.unlines (table family wordBits wordBytes note stream)) := by
  have hhead : (head family (stream.length / wordBytes) wordBits).map (· ++ "\n") =
      [s!"; {family} disassembly\n",
        s!"; {stream.length / wordBytes} instructions ({wordBits}-bit words)\n", "\n"] := by
    simp [head, String.append_assoc]
  rw [ofStream, if_neg (by omega), lines_eq, Text.unlines, table, List.map_append, hhead]
  rfl

theorem exists_ofStream_iff (h0 : 0 < wordBytes) (stream : List UInt8) :
    (∃ listing, ofStream family wordBits wordBytes note stream = .ok listing) ↔
      stream.length % wordBytes = 0 := by
  constructor
  · rintro ⟨listing, h⟩
    by_contra hm
    rw [ofStream, if_pos (.inr hm)] at h
    cases h
  · exact fun hm => ⟨_, ofStream_eq_ok h0 hm⟩

section Faithful

variable {ι : Type} {decode : List UInt8 → Except DecodeError ι} {text : ι → String}

theorem oneLine_describe {x : Except DecodeError ι} (ht : ∀ instr, OneLine (text instr))
    (hx : Ends (fun _ => True) DecodeError.Plain x) : OneLine (describe text x) := by
  cases x with
  | ok instr => exact ht instr
  | error error =>
    have hfeed : '\n' ∉ error.message.toList := hx
    simp [describe, OneLine, hfeed]

theorem faithful_ofStream (h0 : 0 < wordBytes) (hf : OneLine family)
    (ht : ∀ instr, OneLine (text instr))
    (hd : ∀ word, Ends (fun _ => True) DecodeError.Plain (decode word)) :
    Faithful family wordBits wordBytes decode text
      (ofStream family wordBits wordBytes fun word => describe text (decode word)) := by
  refine ⟨h0, exists_ofStream_iff h0, fun stream listing h => ?_⟩
  rw [ofStream_eq_ok h0 ((exists_ofStream_iff h0 stream).mp ⟨listing, h⟩)] at h
  cases h
  exact ⟨rfl, Text.lines_unlines
    (oneLine_table hf (fun word => oneLine_describe ht (hd word)) stream)⟩

end Faithful

theorem faithful_vta {isa : Vta.Isa} {e : Vta.Encoder} (he : Vta.Encoder.ofIsa isa = .ok e) :
    Faithful "VTA" e.wordBits e.wordBytes e.decode Vta.Instruction.text (vta e) := by
  obtain ⟨rfl, hl, _⟩ := Vta.Encoder.of_ofIsa he
  exact faithful_ofStream (Vta.Encoder.wordBytes_pos (hl .memory)) (by decide)
    Vta.Instruction.oneLine_text (Vta.ends_decode e)

theorem faithful_tcu (layout : Tcu.Layout) :
    Faithful "TCU" layout.instructionBits layout.instructionBytes (Tcu.decode layout)
      Tcu.Instruction.text (tcu layout) :=
  faithful_ofStream layout.instructionBytes_pos (by decide) Tcu.Instruction.oneLine_text
    (Tcu.ends_decode layout)

theorem decode_wordAt {layout : Tcu.Layout} {program : List Tcu.Instruction}
    {stream : List UInt8} (h : Tcu.assemble layout program = .ok stream) :
    stream.length = program.length * layout.instructionBytes ∧
      (List.range program.length).map
        (fun i => Tcu.decode layout (wordAt layout.instructionBytes stream i)) =
          program.map .ok := by
  have hpos := layout.instructionBytes_pos
  obtain ⟨words, hw, rfl⟩ := Tcu.assemble_eq_ok h
  obtain ⟨hlen, hm⟩ := Bytes.mapM_decode_words (f := id) hpos
    (fun _ _ => Tcu.Instruction.decode_encode) hw
  rw [mapM_eq_ok_iff, List.map_id, Bytes.words, Bytes.pieces_eq, List.map_map, hlen,
    Nat.mul_div_cancel _ hpos] at hm
  exact ⟨hlen, hm⟩

/-- The listing of an assembled program has the text of every instruction in its row. -/
theorem table_assemble {layout : Tcu.Layout} {program : List Tcu.Instruction}
    {stream : List UInt8} (h : Tcu.assemble layout program = .ok stream) :
    table "TCU" layout.instructionBits layout.instructionBytes
        (fun word => describe Tcu.Instruction.text (Tcu.decode layout word)) stream =
      head "TCU" program.length layout.instructionBits ++ program.mapIdx fun i instr =>
        row (i * layout.instructionBytes) (wordAt layout.instructionBytes stream i) instr.text := by
  obtain ⟨hlen, hd⟩ := decode_wordAt h
  rw [table, hlen, Nat.mul_div_cancel _ layout.instructionBytes_pos]
  congr 1
  apply List.ext_getElem (by simp)
  intro i h1 h2
  have hi : i < program.length := by simpa using h2
  have hdecode := congrArg (·[i]?) hd
  simp [hi] at hdecode
  simp [hdecode, describe]

/-- Listings say of each word what the word alone decodes to, in the order of the stream, and of
nothing else. The offset and the word are read back from their digits, and where the stream is an
assembled program its instructions stand in the rows. -/
theorem listings_faithful :
    (∀ (isa : Vta.Isa) (e : Vta.Encoder), Vta.Encoder.ofIsa isa = .ok e →
      Faithful "VTA" e.wordBits e.wordBytes e.decode Vta.Instruction.text (vta e)) ∧
    (∀ layout : Tcu.Layout,
      Faithful "TCU" layout.instructionBits layout.instructionBytes (Tcu.decode layout)
        Tcu.Instruction.text (tcu layout)) ∧
    (∀ offset : Nat, Text.Hex.toNat? (Text.Hex.padded 6 offset) = some offset ∧
      6 ≤ (Text.Hex.padded 6 offset).length) ∧
    (∀ word : List UInt8, Text.Hex.toBytes? (Text.Hex.ofWord word) = some word.reverse) ∧
    ∀ (layout : Tcu.Layout) (program : List Tcu.Instruction) (stream : List UInt8),
      Tcu.assemble layout program = .ok stream →
        ∃ listing, tcu layout stream = .ok listing ∧
          Text.lines listing = head "TCU" program.length layout.instructionBits ++
            program.mapIdx fun i instr =>
              row (i * layout.instructionBytes) (wordAt layout.instructionBytes stream i)
                instr.text := by
  refine ⟨fun _ _ he => faithful_vta he, faithful_tcu, fun offset => ⟨?_, ?_⟩, ?_,
    fun layout program stream h => ?_⟩
  · exact Text.Hex.toNat?_padded 6 offset
  · rw [Text.Hex.length_padded]
    exact Nat.le_max_left ..
  · exact Text.Hex.toBytes?_ofWord
  · have hfaithful := faithful_tcu layout
    obtain ⟨listing, hl⟩ := (hfaithful.exists_iff stream).mpr (by
      rw [(decode_wordAt h).1, Nat.mul_mod_left])
    exact ⟨listing, hl, (hfaithful.lines stream listing hl).2.trans (table_assemble h)⟩

def mixedStream : List UInt8 :=
  [1, 0, 2, 0, 0, 0, 0, 0x20, 0, 0, 0, 0, 0, 0, 0, 0x70]

theorem listings_faithful_mixed :
    ∃ listing, tcu (.ofDepths .pynqZ1) mixedStream = .ok listing ∧
      Text.lines listing =
        ["; TCU disassembly", "; 2 instructions (64-bit words)", "",
         "0x000000:  2000000000020001  datamove dram0->local local=1 addr=2 size=0",
         "0x000008:  7000000000000000  ; ERROR: Unknown opcode: 0x07"] := by
  have hfaithful := listings_faithful.2.1 (.ofDepths .pynqZ1)
  obtain ⟨listing, hl⟩ := (hfaithful.exists_iff mixedStream).mpr rfl
  exact ⟨listing, hl, (hfaithful.lines mixedStream listing hl).2⟩

end Listing

end TensorUnit
