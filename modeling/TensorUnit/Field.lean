import TensorUnit.Bytes
import TensorUnit.EncodeError

namespace TensorUnit

structure Field where
  name : String
  width : Nat
  value : Nat
  deriving DecidableEq, Repr

def Field.maxWidth : Nat := 64

def Field.Fits (field : Field) : Prop :=
  field.value < 2 ^ field.width

instance (field : Field) : Decidable field.Fits :=
  inferInstanceAs (Decidable (_ < _))

namespace Word

def overlay : Nat → List UInt8 → List UInt8
  | _, [] => []
  | bits, b :: bs => (b ||| UInt8.ofNat bits) :: overlay (bits >>> 8) bs

/-- Sets the bits of a value from bit `offset` on, in the bytes that a field of its width
touches. -/
def stamp (word : List UInt8) (offset width value : Nat) : List UInt8 :=
  let first := offset / 8
  let shift := offset % 8
  let span := (shift + width + 7) / 8
  word.take first ++ overlay (value <<< shift) ((word.drop first).take span)
    ++ word.drop (first + span)

end Word

/-- Fields from the lowest bits up. A name stands for the first field that bears it. -/
abbrev FieldSet := List Field

namespace FieldSet

def push (set : FieldSet) (name : String) (width value : Nat) : Except EncodeError FieldSet :=
  let field : Field := ⟨name, width, value⟩
  if Field.maxWidth < width then .error (.invalidWidth name width)
  else if field.Fits then .ok (set ++ [field])
  else .error (.valueOutOfRange name value width)

def ofFields (fields : List Field) : Except EncodeError FieldSet :=
  fields.foldlM (fun set f => push set f.name f.width f.value) []

def set : FieldSet → String → Nat → Except EncodeError FieldSet
  | [], name, _ => .error (.unknownField name)
  | f :: fs, name, value =>
    if f.name = name then
      let field : Field := { f with value }
      if field.Fits then .ok (field :: fs) else .error (.valueOutOfRange name value f.width)
    else (f :: ·) <$> set fs name value

def setAll (fields : FieldSet) (values : List (String × Nat)) : Except EncodeError FieldSet :=
  values.foldlM (fun fields v => fields.set v.1 v.2) fields

def get? (fields : FieldSet) (name : String) : Option Nat :=
  (fields.find? fun f => f.name = name).map Field.value

/-- The value of a field; a field that is not there is zero. -/
def value (fields : FieldSet) (name : String) : Nat :=
  (fields.get? name).getD 0

def totalBits (fields : FieldSet) : Nat :=
  (fields.map Field.width).sum

def offset? : FieldSet → String → Option Nat
  | [], _ => none
  | f :: fs, name => if f.name = name then some 0 else (f.width + ·) <$> offset? fs name

def place : FieldSet → Nat
  | [] => 0
  | f :: fs => f.value + 2 ^ f.width * place fs

theorem place_lt (fields : FieldSet) (h : ∀ f ∈ fields, f.Fits) :
    fields.place < 2 ^ fields.totalBits := by
  induction fields with
  | nil => decide
  | cons f fs ih =>
    have hf : f.value < 2 ^ f.width := h f (List.mem_cons_self ..)
    have hs := ih fun g hg => h g (List.mem_cons_of_mem _ hg)
    have ht : totalBits (f :: fs) = f.width + totalBits fs := by simp [totalBits]
    have hm := Nat.mul_le_mul_left (2 ^ f.width) (Nat.succ_le_of_lt hs)
    rw [place, ht, Nat.pow_add]
    rw [Nat.mul_succ] at hm
    omega

def stampFrom (word : List UInt8) (offset : Nat) : FieldSet → Except EncodeError (List UInt8)
  | [] => .ok word
  | f :: fs =>
    if f.Fits then
      let stamped := if f.value = 0 then word else Word.stamp word offset f.width f.value
      stampFrom stamped (offset + f.width) fs
    else .error (.valueOutOfRange f.name f.value f.width)

/-- The word of a field set; the bits above the last field are zero. -/
def pack (fields : FieldSet) (wordBits : Nat) : Except EncodeError (List UInt8) :=
  if wordBits = 0 ∨ wordBits % 8 ≠ 0 then .error (.invalidWordSize wordBits)
  else if wordBits < fields.totalBits then .error (.wordOverflow fields.totalBits wordBits)
  else stampFrom (List.replicate (wordBits / 8) 0) 0 fields

end FieldSet

namespace Word

def gather (position number : Nat) : List UInt8 → Nat
  | [] => number
  | b :: bs => gather (position + 1) (number ||| b.toNat <<< (8 * position)) bs

/-- Reads the bits of a window. Positions are 32-bit numbers. -/
def extract (word : List UInt8) (offset width : Nat) : Except EncodeError Nat :=
  let stop := offset + width
  let bits := 8 * word.length
  if Field.maxWidth < width then .error (.invalidWidth s!"bits {offset}.." width)
  else if 2 ^ 32 ≤ stop then .error (.positionOverflow offset width)
  else if bits < stop then .error (.wordOverflow stop bits)
  else if width = 0 then .ok 0
  else
    match Bytes.slice? word (offset / 8) ((stop - 1) / 8) with
    | none => .error (.positionOverflow offset width)
    | some window => .ok (gather 0 0 window >>> (offset % 8) &&& (2 ^ width - 1))

def unpackFrom (word : List UInt8) (offset : Nat) (done : FieldSet) :
    FieldSet → Except EncodeError FieldSet
  | [] => .ok done
  | f :: fs => do
    let value ← extract word offset f.width
    unpackFrom word (offset + f.width) (← done.push f.name f.width value) fs

def unpack (word : List UInt8) (template : FieldSet) : Except EncodeError FieldSet :=
  unpackFrom word 0 [] template

end Word

end TensorUnit
