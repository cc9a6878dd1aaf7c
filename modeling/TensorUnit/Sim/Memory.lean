import TensorUnit.AddressUnits
import TensorUnit.Remote.Error
import TensorUnit.Sim.Buffer

namespace TensorUnit

def blockBytes : UInt64 := 65536

def blocksFor (size : UInt64) : UInt64 :=
  size / blockBytes + (if size % blockBytes = 0 then 0 else 1)

namespace Sim

open Remote (RemoteError)

structure Region where
  base : UInt64
  contents : ByteArray
  deriving DecidableEq

def Region.covers (region : Region) (address : UInt64) (length : Nat) : Bool :=
  region.base ≤ address
    && address.toNat - region.base.toNat + length ≤ region.contents.size

/-- The buffers in the order of their names, and the next address to hand out. -/
structure Memory where
  regions : List (String × Region)
  next : UInt64
  deriving DecidableEq

namespace Memory

def startingAt (base : UInt64) : Except SpecError Memory := do
  return ⟨[], ← SpecError.orTooLarge (Exact.mul? (blocksFor base) blockBytes)⟩

def region? (m : Memory) (name : String) : Option Region :=
  m.regions.lookup name

def place (name : String) (region : Region) : List (String × Region) → List (String × Region)
  | [] => [(name, region)]
  | (n, r) :: rest =>
    if name < n then (name, region) :: (n, r) :: rest else (n, r) :: place name region rest

theorem lookup_place (name other : String) (region : Region) (regions : List (String × Region))
    (h : regions.lookup name = none) :
    (place name region regions).lookup other =
      if other = name then some region else regions.lookup other := by
  induction regions with
  | nil => grind [place]
  | cons r rest ih =>
    obtain ⟨n, r⟩ := r
    grind [place]

/-- The address behind a buffer that is allocated next, if there is one. Every buffer takes at least
one block. -/
def addressAfter? (m : Memory) (size : UInt64) : Option UInt64 :=
  Exact.ofNat? (m.next.toNat + (blocksFor (max size 1)).toNat * blockBytes.toNat)

def alloc (m : Memory) (name : String) (size : UInt64) : Except RemoteError (UInt64 × Memory) :=
  if (m.region? name).isSome then .error (.bufferExists name)
  else
    match m.addressAfter? size with
    | none => .error (.unallocatable size)
    | some next =>
      if byteLimit ≤ size.toNat then .error (.unallocatable size)
      else .ok (m.next, ⟨place name ⟨m.next, zeroBytes size.toNat⟩ m.regions, next⟩)

theorem region?_alloc {m m' : Memory} {name : String} {size address : UInt64}
    (h : m.alloc name size = .ok (address, m')) (other : String) :
    m'.region? other =
      if other = name then some ⟨address, zeroBytes size.toNat⟩ else m.region? other := by
  unfold alloc at h
  split at h
  · cases h
  · rename_i hn
    split at h
    · cases h
    · split at h
      · cases h
      · cases h
        exact lookup_place _ _ _ _ (Option.not_isSome_iff_eq_none.1 hn)

def dealloc (m : Memory) (name : String) : Except RemoteError Memory :=
  if (m.region? name).isSome then
    .ok { m with regions := m.regions.filter fun r => r.1 ≠ name }
  else .error (.unknownBuffer name)

/-- Drops all buffers. Their addresses stay used. -/
def clear (m : Memory) : Memory :=
  { m with regions := [] }

def checkWindow (m : Memory) (name : String) (offset length : UInt64) : Except RemoteError Unit :=
  match m.region? name with
  | none => .error (.unknownBuffer name)
  | some region =>
    if offset.toNat + length.toNat ≤ region.contents.size then .ok ()
    else
      let stop := min (offset.toNat + length.toNat) (2 ^ 64 - 1)
      .error (.outOfRange name offset (.ofNat stop) (.ofNat region.contents.size))

def writeRegion (name : String) (offset : Nat) (data : List UInt8) :
    List (String × Region) → List (String × Region)
  | [] => []
  | (n, ⟨base, contents⟩) :: rest =>
    if n = name then (n, ⟨base, overwriteBytes contents offset data⟩) :: rest
    else (n, ⟨base, contents⟩) :: writeRegion name offset data rest

theorem lookup_writeRegion (name other : String) (offset : Nat) (data : List UInt8)
    (regions : List (String × Region)) :
    (writeRegion name offset data regions).lookup other =
      if other = name then
        (regions.lookup other).map fun r => ⟨r.base, overwriteBytes r.contents offset data⟩
      else regions.lookup other := by
  induction regions with
  | nil => simp [writeRegion]
  | cons r rest ih =>
    obtain ⟨n, base, contents⟩ := r
    grind [writeRegion]

def write (m : Memory) (name : String) (offset : UInt64) (data : List UInt8) : Memory :=
  { m with regions := writeRegion name offset.toNat data m.regions }

theorem region?_write (m : Memory) (name other : String) (offset : UInt64) (data : List UInt8) :
    (m.write name offset data).region? other =
      if other = name then
        (m.region? other).map fun r => ⟨r.base, overwriteBytes r.contents offset.toNat data⟩
      else m.region? other :=
  lookup_writeRegion ..

def read (m : Memory) (name : String) (offset length : UInt64) : List UInt8 :=
  match m.region? name with
  | none => []
  | some region => windowBytes region.contents offset.toNat length.toNat

def regionAt? (m : Memory) (address : UInt64) (length : Nat) : Option Region :=
  (m.regions.find? fun r => r.2.covers address length).map Prod.snd

def readAt? (m : Memory) (address : UInt64) (length : Nat) : Option (List UInt8) :=
  (m.regionAt? address length).map fun region =>
    windowBytes region.contents (address.toNat - region.base.toNat) length

def writeRegionAt (address : UInt64) (data : List UInt8) :
    List (String × Region) → List (String × Region)
  | [] => []
  | (n, ⟨base, contents⟩) :: rest =>
    if (Region.mk base contents).covers address data.length then
      (n, ⟨base, overwriteBytes contents (address.toNat - base.toNat) data⟩) :: rest
    else (n, ⟨base, contents⟩) :: writeRegionAt address data rest

def writeAt (m : Memory) (address : UInt64) (data : List UInt8) : Memory :=
  { m with regions := writeRegionAt address data m.regions }

end Memory

end Sim

end TensorUnit
