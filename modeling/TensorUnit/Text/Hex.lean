namespace TensorUnit.Text.Hex

def digits (n : Nat) : String :=
  String.ofList (Nat.toDigits 16 n)

def digitsOfWidth (width n : Nat) : List Char :=
  let ds := Nat.toDigits 16 n
  List.replicate (width - ds.length) '0' ++ ds

def padded (width n : Nat) : String :=
  String.ofList ((digitsOfWidth width n).map Char.toUpper)

def prefixed (n : Nat) : String :=
  "0x" ++ digits n

def prefixedUpper (width n : Nat) : String :=
  "0x" ++ padded width n

def digitChars (b : UInt8) : List Char :=
  [Nat.digitChar (b.toNat / 16), Nat.digitChar (b.toNat % 16)]

def ofBytes (bytes : List UInt8) : String :=
  String.ofList (bytes.flatMap digitChars)

/-- Two upper-case digits a byte, most significant byte first, the way a word reads as a number. -/
def ofWord (word : List UInt8) : String :=
  String.ofList ((word.reverse.flatMap digitChars).map Char.toUpper)

def digitValue? (c : Char) : Option Nat :=
  if '0' ≤ c ∧ c ≤ '9' then some (c.toNat - '0'.toNat)
  else if 'a' ≤ c ∧ c ≤ 'f' then some (c.toNat - 'a'.toNat + 10)
  else if 'A' ≤ c ∧ c ≤ 'F' then some (c.toNat - 'A'.toNat + 10)
  else none

def readFrom (value : Nat) : List Char → Option Nat
  | [] => some value
  | c :: cs => (digitValue? c).bind fun d => readFrom (16 * value + d) cs

def toNat? (s : String) : Option Nat :=
  if s.isEmpty then none else readFrom 0 s.toList

def bytesFrom (done : List UInt8) : List Char → Option (List UInt8)
  | [] => some done.reverse
  | [_] => none
  | h :: l :: cs => do
    let h ← digitValue? h
    let l ← digitValue? l
    bytesFrom (UInt8.ofNat (16 * h + l) :: done) cs

def toBytes? (s : String) : Option (List UInt8) :=
  bytesFrom [] s.toList

end TensorUnit.Text.Hex
