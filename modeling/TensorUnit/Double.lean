import TensorUnit.Numerals

namespace TensorUnit

/-- An IEEE 754 double as its 64 bits: a sign, 11 bits of exponent and 52 bits of fraction. -/
structure Double where
  bits : UInt64
  deriving DecidableEq, Repr

namespace Double

/-- What a double denotes. A finite one is `± significand * 2 ^ exponent`. -/
inductive Datum where
  | nan
  | infinite (negative : Bool)
  | finite (negative : Bool) (significand : Nat) (exponent : Int)
  deriving DecidableEq, Repr

def signBit (x : Double) : Bool :=
  x.bits.toNat.testBit 63

def exponentBits (x : Double) : Nat :=
  x.bits.toNat / 2 ^ 52 % 2 ^ 11

def fractionBits (x : Double) : Nat :=
  x.bits.toNat % 2 ^ 52

def datum (x : Double) : Datum :=
  if x.exponentBits = 2047 then
    if x.fractionBits = 0 then .infinite x.signBit else .nan
  else if x.exponentBits = 0 then .finite x.signBit x.fractionBits (-1074)
  else .finite x.signBit (2 ^ 52 + x.fractionBits) (x.exponentBits - 1075)

def number (x : Double) : Float.Model :=
  .ofBits x.bits

def ofNumber (y : Float.Model) : Double :=
  ⟨y.toBits⟩

def truncate (y : Float.Model) : Float.Model :=
  match y.unpack with
  | .finite sign mantissa exponent _ =>
    if exponent < 0 then .pack (.round .binary64 sign (mantissa / 2 ^ exponent.natAbs) 0) else y
  | _ => y

def clamp (lo hi y : Float.Model) : Float.Model :=
  let raised := if y < lo then lo else y
  if hi < raised then hi else raised

end Double

end TensorUnit
