import Mathlib.Data.List.Pairwise
import TensorUnit.Sim.Memory

namespace TensorUnit.Sim

/-- The values from an index on are exchanged for as many others. -/
def splice {α : Type} (l : List α) (index : Nat) (values : List α) : List α :=
  l.take index ++ values ++ l.drop (index + values.length)

section Splice

variable {α : Type} {l : List α} {index : Nat} {values : List α}

theorem length_splice (h : index + values.length ≤ l.length) :
    (splice l index values).length = l.length := by
  simp only [splice, List.length_append, List.length_take, List.length_drop]
  omega

theorem getElem?_splice (h : index + values.length ≤ l.length) (k : Nat) :
    (splice l index values)[k]? =
      if index ≤ k ∧ k < index + values.length then values[k - index]? else l[k]? := by
  have ht : (l.take index).length = index := by
    rw [List.length_take]
    omega
  rw [splice]
  by_cases hk : k < index
  · rw [List.append_assoc, List.getElem?_append_left (by omega), List.getElem?_take_of_lt hk,
      if_neg (by omega)]
  · by_cases hv : k < index + values.length
    · rw [List.append_assoc, List.getElem?_append_right (by omega), ht,
        List.getElem?_append_left (by omega), if_pos (by omega)]
    · rw [List.getElem?_append_right (by rw [List.length_append]; omega), List.length_append, ht,
        List.getElem?_drop, if_neg (by omega)]
      congr 1
      omega

theorem splice_nil (l : List α) (index : Nat) : splice l index [] = l := by
  rw [splice, List.append_nil, List.length_nil, Nat.add_zero, List.take_append_drop]

theorem splice_append {more : List α}
    (h : index + values.length + more.length ≤ l.length) :
    splice (splice l index values) (index + values.length) more =
      splice l index (values ++ more) := by
  have h1 : index + values.length ≤ l.length := by omega
  have h2 : index + values.length + more.length ≤ (splice l index values).length := by
    rw [length_splice h1]
    exact h
  have h3 : index + (values ++ more).length ≤ l.length := by
    rw [List.length_append]
    omega
  apply List.ext_getElem?
  intro k
  rw [getElem?_splice h2, getElem?_splice h1, getElem?_splice h3, List.length_append]
  by_cases hm : index + values.length ≤ k ∧ k < index + values.length + more.length
  · rw [if_pos hm, if_pos (by omega), List.getElem?_append_right (by omega)]
    congr 1
    omega
  · rw [if_neg hm]
    by_cases hv : index ≤ k ∧ k < index + values.length
    · rw [if_pos hv, if_pos (by omega), List.getElem?_append_left (by omega)]
    · rw [if_neg hv, if_neg (by omega)]

theorem drop_take_splice (h : index + values.length ≤ l.length) :
    ((splice l index values).drop index).take values.length = values := by
  have hl : (l.take index).length = index := by
    rw [List.length_take]
    omega
  rw [splice, List.append_assoc, List.drop_append, List.drop_of_length_le (Nat.le_of_eq hl), hl,
    Nat.sub_self, List.drop_zero, List.nil_append, List.take_left]

theorem drop_take_splice_of_disjoint {other length : Nat}
    (hfit : index + values.length ≤ l.length)
    (h : min (other + length) (index + values.length) ≤ max other index) :
    ((splice l index values).drop other).take length = (l.drop other).take length := by
  apply List.ext_getElem?
  intro k
  rw [List.getElem?_take, List.getElem?_take, List.getElem?_drop, List.getElem?_drop,
    getElem?_splice hfit]
  split
  · rw [if_neg (by omega)]
  · rfl

end Splice

theorem size_overwriteBytes (contents : ByteArray) (offset : Nat) (bytes : List UInt8) :
    (overwriteBytes contents offset bytes).size = contents.size := by
  change (overwriteBytes contents offset bytes).data.size = contents.data.size
  rw [data_overwriteBytes, size_overwrite]

theorem toList_overwriteBytes {contents : ByteArray} {offset : Nat} {bytes : List UInt8}
    (h : offset + bytes.length ≤ contents.size) :
    (overwriteBytes contents offset bytes).data.toList =
      splice contents.data.toList offset bytes := by
  rw [data_overwriteBytes, toList_overwrite h, splice]

theorem windowBytes_eq (contents : ByteArray) (offset length : Nat) :
    windowBytes contents offset length = (contents.data.toList.drop offset).take length := by
  rw [windowBytes_eq_window, window_eq]

structure Extent where
  name : String
  base : Nat
  size : Nat
  deriving DecidableEq

namespace Extent

def stop (e : Extent) : Nat :=
  e.base + e.size

def Apart (a b : Extent) : Prop :=
  a.name ≠ b.name ∧ (a.stop ≤ b.base ∨ b.stop ≤ a.base)

theorem Apart.symm {a b : Extent} (h : a.Apart b) : b.Apart a :=
  ⟨h.1.symm, h.2.symm⟩

def of (r : String × Region) : Extent :=
  ⟨r.1, r.2.base.toNat, r.2.contents.size⟩

end Extent

namespace Memory

def extents (m : Memory) : List Extent :=
  m.regions.map Extent.of

def bytes (m : Memory) (name : String) : List UInt8 :=
  match m.region? name with
  | none => []
  | some region => region.contents.data.toList

/-- Buffers lie apart, each from the start of a block on, and below all that is still to be handed
out. -/
structure Apart (m : Memory) : Prop where
  next : m.next.toNat % blockBytes.toNat = 0
  below : ∀ e ∈ m.extents, e.stop ≤ m.next.toNat ∧ e.base % blockBytes.toNat = 0
  apart : m.extents.Pairwise Extent.Apart

theorem mem_regions {m : Memory} {name : String} {r : Region} (h : m.region? name = some r) :
    (name, r) ∈ m.regions := by
  obtain ⟨before, after, hs, _⟩ := List.lookup_eq_some_iff.mp h
  rw [hs]
  exact List.mem_append_right _ (List.mem_cons_self ..)

theorem extents_write (m : Memory) (name : String) (offset : UInt64) (data : List UInt8) :
    (m.write name offset data).extents = m.extents := by
  unfold write extents
  simp only
  induction m.regions with
  | nil => rfl
  | cons r rest ih =>
    obtain ⟨n, base, contents⟩ := r
    rw [writeRegion]
    split
    · rw [List.map_cons, List.map_cons, Extent.of, size_overwriteBytes]
      rfl
    · rw [List.map_cons, List.map_cons, ih]

theorem extents_writeAt (m : Memory) (address : UInt64) (data : List UInt8) :
    (m.writeAt address data).extents = m.extents := by
  unfold writeAt extents
  simp only
  induction m.regions with
  | nil => rfl
  | cons r rest ih =>
    obtain ⟨n, base, contents⟩ := r
    rw [writeRegionAt]
    split
    · rw [List.map_cons, List.map_cons, Extent.of, size_overwriteBytes]
      rfl
    · rw [List.map_cons, List.map_cons, ih]

theorem Apart.congr {m m' : Memory} (h : m.Apart) (he : m'.extents = m.extents)
    (hn : m'.next = m.next) : m'.Apart := by
  obtain ⟨next, below, apart⟩ := h
  exact ⟨by rwa [hn], by rwa [he, hn], by rwa [he]⟩

theorem Apart.write {m : Memory} (h : m.Apart) (name : String) (offset : UInt64)
    (data : List UInt8) : (m.write name offset data).Apart :=
  h.congr (extents_write ..) rfl

theorem bytes_write {m : Memory} {name : String} {offset : UInt64} {data : List UInt8}
    (h : offset.toNat + data.length ≤ (m.bytes name).length) (other : String) :
    (m.write name offset data).bytes other =
      if other = name then splice (m.bytes name) offset.toNat data else m.bytes other := by
  unfold bytes at h ⊢
  rw [region?_write]
  by_cases ho : other = name
  · subst ho
    rw [if_pos rfl, if_pos rfl]
    cases hr : m.region? other with
    | none =>
      rw [hr, List.length_nil] at h
      rw [List.eq_nil_of_length_eq_zero (by omega : data.length = 0), splice_nil]
      rfl
    | some region =>
      rw [hr] at h
      exact toList_overwriteBytes h
  · rw [if_neg ho, if_neg ho]

theorem bytes_write_more {m : Memory} {name : String} {l data chunk : List UInt8}
    {start n : Nat} {position : UInt64} (hm : m.bytes name = splice l start (data.take n))
    (hle : n + chunk.length ≤ data.length) (hc : chunk = (data.drop n).take chunk.length)
    (hp : position.toNat = start + n) (hfit : start + n + chunk.length ≤ l.length) :
    (m.write name position chunk).bytes name = splice l start (data.take (n + chunk.length)) := by
  have htake : (data.take n).length = n := by
    rw [List.length_take]
    omega
  have hlen : (m.bytes name).length = l.length := by
    rw [hm, length_splice]
    omega
  have hmore : splice (splice l start (data.take n)) (start + (data.take n).length) chunk =
      splice l start (data.take n ++ chunk) :=
    splice_append (by rw [htake]; exact hfit)
  rw [bytes_write (by rw [hlen, hp]; exact hfit), if_pos rfl, List.take_add, ← hc, ← hmore, htake,
    ← hp, hm]

theorem read_eq (m : Memory) (name : String) (offset length : UInt64) :
    m.read name offset length = ((m.bytes name).drop offset.toNat).take length.toNat := by
  unfold read bytes
  cases m.region? name with
  | none => simp
  | some region => exact windowBytes_eq ..

section Physical

variable {m : Memory} {name : String} {r : Region} {address : UInt64}

theorem Apart.eq_of_covers (h : m.Apart) {a b : String × Region} (ha : a ∈ m.regions)
    (hb : b ∈ m.regions) {length : Nat} (hl : 0 < length) (hca : a.2.covers address length)
    (hcb : b.2.covers address length) : a = b := by
  by_contra hne
  have hp : m.regions.Pairwise fun a b => (Extent.of a).Apart (Extent.of b) :=
    List.pairwise_map.mp h.apart
  have : Std.Symm fun a b : String × Region => (Extent.of a).Apart (Extent.of b) :=
    ⟨fun _ _ => Extent.Apart.symm⟩
  obtain ⟨_, hd⟩ := hp.forall ha hb hne
  simp only [Region.covers, Bool.and_eq_true, decide_eq_true_eq, UInt64.le_iff_toNat_le]
    at hca hcb
  simp only [Extent.of, Extent.stop] at hd
  omega

theorem Apart.find?_covers (h : m.Apart) (hr : m.region? name = some r) {length : Nat}
    (hl : 0 < length) (hc : r.covers address length) :
    m.regionAt? address length = some r := by
  have hm := mem_regions hr
  unfold regionAt?
  cases hf : m.regions.find? fun s => s.2.covers address length with
  | none =>
    have hn := List.find?_eq_none.mp hf (name, r) hm
    exact absurd hc hn
  | some s =>
    have hs := List.find?_some hf
    rw [h.eq_of_covers (List.mem_of_find?_eq_some hf) hm hl hs hc]
    rfl

theorem Apart.readAt?_eq (h : m.Apart) (hr : m.region? name = some r) {length : Nat}
    (hl : 0 < length) (hc : r.covers address length) :
    m.readAt? address length =
      some (((m.bytes name).drop (address.toNat - r.base.toNat)).take length) := by
  rw [readAt?, h.find?_covers hr hl hc, Option.map_some, windowBytes_eq, bytes, hr]

theorem Apart.writeAt_eq (h : m.Apart) (hr : m.region? name = some r) {data : List UInt8}
    (hl : 0 < data.length) (hc : r.covers address data.length) :
    m.writeAt address data = m.write name (.ofNat (address.toNat - r.base.toNat)) data := by
  have ho : (UInt64.ofNat (address.toNat - r.base.toNat)).toNat =
      address.toNat - r.base.toNat :=
    UInt64.toNat_ofNat_of_lt' (Nat.lt_of_le_of_lt (Nat.sub_le ..) address.toNat_lt)
  unfold writeAt Memory.write
  rw [ho]
  congr 1
  have hu : ∀ s ∈ m.regions, s.2.covers address data.length → s = (name, r) := fun s hs hcs =>
    h.eq_of_covers hs (mem_regions hr) hl hcs hc
  have hlookup : m.regions.lookup name = some r := hr
  generalize m.regions = regions at hu hlookup
  induction regions with
  | nil => rfl
  | cons s rest ih =>
    obtain ⟨n, base, contents⟩ := s
    rw [writeRegionAt, writeRegion]
    by_cases hs : (Region.mk base contents).covers address data.length
    · obtain ⟨rfl, rfl⟩ := Prod.mk.inj (hu _ (List.mem_cons_self ..) hs)
      rw [if_pos hs, if_pos rfl]
    · have hn : n ≠ name := by
        rintro rfl
        rw [List.lookup_cons_self] at hlookup
        exact hs (Option.some.inj hlookup ▸ hc)
      rw [List.lookup_cons, beq_eq_false_iff_ne.mpr hn.symm] at hlookup
      rw [if_neg hs, if_neg hn, ih (fun t ht => hu t (List.mem_cons_of_mem _ ht)) hlookup]

end Physical

theorem length_of_readAt? {m : Memory} {address : UInt64} {length : Nat}
    {bytes : List UInt8} (h : m.readAt? address length = some bytes) : bytes.length = length := by
  obtain ⟨region, hr, rfl⟩ := Option.map_eq_some_iff.mp h
  obtain ⟨r, hf, rfl⟩ := Option.map_eq_some_iff.mp hr
  have hc := List.find?_some hf
  simp only [Region.covers, Bool.and_eq_true, decide_eq_true_eq] at hc
  have hsize : r.2.contents.data.toList.length = r.2.contents.size := rfl
  simp [windowBytes_eq]
  omega

def roundUp (n : Nat) : Nat :=
  (n + (blockBytes.toNat - 1)) / blockBytes.toNat * blockBytes.toNat

theorem roundUp_spec (n : Nat) :
    roundUp n % blockBytes.toNat = 0 ∧ n ≤ roundUp n ∧ roundUp n < n + blockBytes.toNat := by
  have hb : blockBytes.toNat = 65536 := rfl
  rw [roundUp, hb]
  omega

theorem toNat_blocksFor (size : UInt64) :
    (blocksFor size).toNat * blockBytes.toNat = roundUp size.toNat := by
  have hb : blockBytes.toNat = 65536 := rfl
  have hs := size.toNat_lt
  have hd : (size / blockBytes).toNat = size.toNat / 65536 := UInt64.toNat_div ..
  have hm : (size % blockBytes).toNat = size.toNat % 65536 := UInt64.toNat_mod ..
  rw [blocksFor, roundUp, hb]
  split
  · rename_i hz
    have hz' : size.toNat % 65536 = 0 := (hz ▸ hm).symm
    rw [UInt64.add_zero, hd]
    omega
  · rename_i hz
    have hz' : size.toNat % 65536 ≠ 0 := fun he => hz (UInt64.toNat_inj.mp (by rw [hm, he]; rfl))
    have hq : (size / blockBytes + 1).toNat = size.toNat / 65536 + 1 := by
      rw [UInt64.toNat_add, hd]
      exact Nat.mod_eq_of_lt (by change size.toNat / 65536 + 1 < 2 ^ 64; omega)
    rw [hq]
    omega

theorem blocksFor_spec (size : UInt64) :
    size.toNat ≤ (blocksFor size).toNat * blockBytes.toNat ∧
      (size.toNat % blockBytes.toNat = 0 →
        (blocksFor size).toNat * blockBytes.toNat = size.toNat) := by
  have hb : blockBytes.toNat = 65536 := rfl
  obtain ⟨hmod, hle, hlt⟩ := roundUp_spec size.toNat
  rw [hb] at hmod hlt
  rw [toNat_blocksFor, hb]
  omega

theorem toNat_max (a b : UInt64) : (max a b).toNat = max a.toNat b.toNat := by
  change (if a ≤ b then b else a).toNat = _
  split
  · exact (Nat.max_eq_right (UInt64.le_iff_toNat_le.mp ‹_›)).symm
  · have hle := UInt64.le_of_lt (UInt64.not_le.mp ‹_›)
    exact (Nat.max_eq_left (UInt64.le_iff_toNat_le.mp hle)).symm

theorem perm_place (name : String) (region : Region) (regions : List (String × Region)) :
    (place name region regions).Perm ((name, region) :: regions) := by
  induction regions with
  | nil => exact .refl _
  | cons r rest ih =>
    obtain ⟨n, r⟩ := r
    rw [place]
    split
    · exact .refl _
    · exact (ih.cons _).trans (.swap ..)

section Allocation

variable {m m' : Memory} {name : String} {size address : UInt64}

theorem alloc_spec (ha : m.alloc name size = .ok (address, m')) :
    m.region? name = none ∧ address = m.next ∧
      m'.next.toNat = m.next.toNat + roundUp (max size.toNat 1) ∧
      m'.extents.Perm (⟨name, m.next.toNat, size.toNat⟩ :: m.extents) := by
  unfold Memory.alloc at ha
  split at ha
  · cases ha
  · rename_i hn
    split at ha
    · cases ha
    · rename_i next hnext
      split at ha
      · cases ha
      · cases ha
        have hnext := Exact.ofNat?_eq_some_iff.mp hnext
        rw [toNat_blocksFor, toNat_max] at hnext
        have hsize : (zeroBytes size.toNat).size = size.toNat := by
          change (Array.replicate size.toNat (0 : UInt8)).size = _
          simp
        have hperm := (perm_place name ⟨m.next, zeroBytes size.toNat⟩ m.regions).map Extent.of
        rw [List.map_cons, Extent.of, hsize] at hperm
        exact ⟨Option.not_isSome_iff_eq_none.mp hn, rfl, hnext.symm, hperm⟩

theorem name_ne_of_region? (hn : m.region? name = none) : ∀ e ∈ m.extents, e.name ≠ name := by
  rintro e he rfl
  obtain ⟨r, hr, he⟩ := List.mem_map.mp he
  have hb := List.lookup_eq_none_iff.mp hn r hr
  rw [← he] at hb
  simp [Extent.of] at hb

/-- A buffer that is allocated starts where none has been before. -/
theorem Apart.alloc (h : m.Apart) (ha : m.alloc name size = .ok (address, m')) :
    m'.Apart ∧ address = m.next := by
  obtain ⟨hn, haddress, hnext, hperm⟩ := alloc_spec ha
  obtain ⟨hmod, hle, _⟩ := roundUp_spec (max size.toNat 1)
  refine ⟨⟨?_, fun e he => ?_, ?_⟩, haddress⟩
  · rw [hnext, Nat.add_mod, h.next, hmod]
    rfl
  · rcases List.mem_cons.mp (hperm.mem_iff.mp he) with rfl | he
    · simp only [Extent.stop]
      exact ⟨by omega, h.next⟩
    · obtain ⟨hstop, hbase⟩ := h.below e he
      exact ⟨by omega, hbase⟩
  · apply (hperm.pairwise_iff fun h => Extent.Apart.symm h).mpr
    exact List.pairwise_cons.mpr ⟨fun e he =>
      ⟨(name_ne_of_region? hn e he).symm, .inr (h.below e he).1⟩, h.apart⟩

theorem dealloc_spec (hd : m.dealloc name = .ok m') :
    m'.next = m.next ∧ m'.extents = m.extents.filter fun e => e.name ≠ name := by
  unfold Memory.dealloc at hd
  split at hd
  · cases hd
    refine ⟨rfl, ?_⟩
    rw [extents, extents, List.filter_map]
    rfl
  · cases hd

theorem Apart.dealloc (h : m.Apart) (hd : m.dealloc name = .ok m') : m'.Apart := by
  obtain ⟨hnext, hextents⟩ := dealloc_spec hd
  refine ⟨by rw [hnext]; exact h.next, fun e he => ?_, ?_⟩
  · rw [hextents] at he
    rw [hnext]
    exact h.below e (List.mem_filter.mp he).1
  · rw [hextents]
    exact h.apart.filter _

theorem region?_dealloc (hd : m.dealloc name = .ok m') (other : String) :
    m'.region? other = if other = name then none else m.region? other := by
  unfold Memory.dealloc at hd
  split at hd
  · cases hd
    unfold region?
    simp only
    induction m.regions with
    | nil => simp
    | cons r rest ih => grind
  · cases hd

end Allocation

theorem region?_eq_none_of_alloc {m m' : Memory} {name : String} {size address : UInt64}
    (h : m.alloc name size = .ok (address, m')) : m.region? name = none := by
  unfold Memory.alloc at h
  split at h
  · cases h
  · exact Option.not_isSome_iff_eq_none.mp ‹_›

/-- There is a buffer of a name, and it holds the bytes. -/
def Has (m : Memory) (name : String) (bytes : List UInt8) : Prop :=
  (m.region? name).isSome ∧ m.bytes name = bytes

theorem has_alloc {m m' : Memory} {name : String} {size address : UInt64}
    (h : m.alloc name size = .ok (address, m')) : m'.Has name (List.replicate size.toNat 0) := by
  unfold Has Memory.bytes
  rw [region?_alloc h, if_pos rfl]
  exact ⟨rfl, Array.toList_replicate⟩

/-- Two memories with the same buffers, one buffer apart. -/
def Beside (name : String) (m m' : Memory) : Prop :=
  ∀ other, other ≠ name → m'.region? other = m.region? other

theorem Beside.bytes {name : String} {m m' : Memory} (h : Beside name m m') {other : String}
    (ho : other ≠ name) : m'.bytes other = m.bytes other := by
  rw [Memory.bytes, Memory.bytes, h other ho]

theorem beside_write (m : Memory) (name : String) (offset : UInt64) (data : List UInt8) :
    Beside name m (m.write name offset data) := by
  intro other ho
  rw [region?_write, if_neg ho]

theorem beside_alloc {m m' : Memory} {name : String} {size address : UInt64}
    (h : m.alloc name size = .ok (address, m')) : Beside name m m' := by
  intro other ho
  rw [region?_alloc h, if_neg ho]

theorem beside_dealloc {m m' : Memory} {name : String} (h : m.dealloc name = .ok m') :
    Beside name m m' := by
  intro other ho
  rw [region?_dealloc h, if_neg ho]

theorem region?_isSome_iff {m : Memory} {name : String} :
    (m.region? name).isSome ↔ ∃ e ∈ m.extents, e.name = name := by
  constructor
  · intro h
    obtain ⟨r, hr⟩ := Option.isSome_iff_exists.mp h
    exact ⟨_, List.mem_map_of_mem (mem_regions hr), rfl⟩
  · rintro ⟨e, he, rfl⟩
    obtain ⟨⟨name, r⟩, hr, rfl⟩ := List.mem_map.mp he
    exact List.lookup_isSome_iff.mpr ⟨(name, r), hr, beq_self_eq_true _⟩

theorem region?_isSome_congr {m m' : Memory} (h : m'.extents = m.extents) (name : String) :
    (m'.region? name).isSome = (m.region? name).isSome := by
  rw [Bool.eq_iff_iff, region?_isSome_iff, region?_isSome_iff, h]

theorem Apart.length_bytes_lt {m : Memory} (h : m.Apart) (name : String) :
    (m.bytes name).length < 2 ^ 64 := by
  unfold bytes
  cases hr : m.region? name with
  | none => exact Nat.two_pow_pos 64
  | some r =>
    have hstop := (h.below _ (List.mem_map_of_mem (mem_regions hr))).1
    have hnext := m.next.toNat_lt
    have hsize : r.contents.size = r.contents.data.toList.length := rfl
    simp only [Extent.stop, Extent.of] at hstop
    change r.contents.data.toList.length < _
    omega

theorem startingAt_spec {base : UInt64} {m : Memory} (h : startingAt base = .ok m) :
    m.regions = [] ∧ m.next.toNat = roundUp base.toNat := by
  rw [startingAt] at h
  cases hm : Exact.mul? (blocksFor base) blockBytes with
  | none =>
    rw [hm] at h
    cases h
  | some next =>
    rw [hm] at h
    cases h
    rw [← Exact.mul?_eq_some_iff.mp hm, toNat_blocksFor]
    exact ⟨rfl, rfl⟩

theorem apart_startingAt {base : UInt64} {m : Memory} (h : startingAt base = .ok m) :
    m.Apart ∧ m.regions = [] := by
  obtain ⟨hregions, hnext⟩ := startingAt_spec h
  refine ⟨⟨?_, ?_, ?_⟩, hregions⟩
  · rw [hnext]
    exact (roundUp_spec _).1
  · rw [extents, hregions]
    exact fun _ he => absurd he List.not_mem_nil
  · rw [extents, hregions]
    exact .nil

end Memory

end TensorUnit.Sim
