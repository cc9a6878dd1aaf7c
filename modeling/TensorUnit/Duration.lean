import TensorUnit.Numerals

namespace TensorUnit

structure Duration where
  secs : UInt64
  nanos : UInt32
  deriving DecidableEq, Repr

namespace Duration

def zero : Duration :=
  ⟨0, 0⟩

def ofSecs (secs : UInt64) : Duration :=
  ⟨secs, 0⟩

def nanosPerSec : Nat := 1000000000

def ofParts? (secs : UInt64) (nanos : UInt32) : Option Duration :=
  let total := secs.toNat + nanos.toNat / nanosPerSec
  if total < 2 ^ 64 then some ⟨.ofNat total, .ofNat (nanos.toNat % nanosPerSec)⟩ else none

def toNanos (d : Duration) : Nat :=
  d.secs.toNat * nanosPerSec + d.nanos.toNat

def toMillis (d : Duration) : Nat :=
  d.toNanos / 1000000

def ofMillis (millis : Nat) : Duration :=
  ⟨.ofNat (millis / 1000), .ofNat (millis % 1000 * 1000000)⟩

def decimal (whole fraction places : Nat) : String :=
  let digits := Nat.toDigits 10 fraction
  let padded := List.replicate (places - digits.length) '0' ++ digits
  let kept := (padded.reverse.dropWhile fun c => c = '0').reverse
  if kept.isEmpty then toString whole else toString whole ++ "." ++ String.ofList kept

def text (d : Duration) : String :=
  let n := d.nanos.toNat
  if 0 < d.secs.toNat then decimal d.secs.toNat n 9 ++ "s"
  else if 1000000 ≤ n then decimal (n / 1000000) (n % 1000000) 6 ++ "ms"
  else if 1000 ≤ n then decimal (n / 1000) (n % 1000) 3 ++ "µs"
  else toString n ++ "ns"

end Duration

end TensorUnit
