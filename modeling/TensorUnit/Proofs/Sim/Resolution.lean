import TensorUnit.Proofs.Sim.Device

namespace TensorUnit.Sim

def Extent.Contains (e : Extent) (address length : Nat) : Prop :=
  e.base ≤ address ∧ address + length ≤ e.stop

instance (e : Extent) (address length : Nat) : Decidable (e.Contains address length) :=
  inferInstanceAs (Decidable (_ ∧ _))

theorem covers_iff_contains {r : String × Region} {address : UInt64} {length : Nat} :
    r.2.covers address length = true ↔ (Extent.of r).Contains address.toNat length := by
  simp only [Region.covers, Extent.Contains, Extent.of, Extent.stop, Bool.and_eq_true,
    decide_eq_true_eq, UInt64.le_iff_toNat_le]
  omega

/-- A search that only one element can end finds it in any order. -/
theorem find?_eq_of_perm {α : Type} {p : α → Bool} {l l' : List α} (hp : l'.Perm l)
    (hu : ∀ a ∈ l, ∀ b ∈ l, p a → p b → a = b) : l'.find? p = l.find? p := by
  cases h : l'.find? p with
  | none =>
    have hn := List.find?_eq_none.mp h
    exact (List.find?_eq_none.mpr fun a ha => hn a (hp.mem_iff.mpr ha)).symm
  | some a =>
    have ha := hp.mem_iff.mp (List.mem_of_find?_eq_some h)
    have hpa := List.find?_some h
    cases h' : l.find? p with
    | none => exact absurd hpa (List.find?_eq_none.mp h' a ha)
    | some b =>
      rw [hu a ha b (List.mem_of_find?_eq_some h') hpa (List.find?_some h')]

namespace Memory

/-- A buffer with some of its bytes exchanged, if it has all of them. -/
def patched (address : Nat) (data : List UInt8) (r : String × Region) : String × Region :=
  if (Extent.of r).Contains address data.length then
    (r.1, ⟨r.2.base, overwriteBytes r.2.contents (address - r.2.base.toNat) data⟩)
  else r

theorem map_patched_of_not_contains {address : Nat} {data : List UInt8}
    {regions : List (String × Region)}
    (h : ∀ r ∈ regions, ¬ (Extent.of r).Contains address data.length) :
    regions.map (patched address data) = regions := by
  refine (List.map_congr_left fun r hr => ?_).trans (List.map_id regions)
  exact if_neg (h r hr)

theorem writeRegionAt_eq_map {address : UInt64} {data : List UInt8}
    {regions : List (String × Region)}
    (h : regions.Pairwise fun a b => (Extent.of a).Contains address.toNat data.length →
      ¬ (Extent.of b).Contains address.toNat data.length) :
    writeRegionAt address data regions = regions.map (patched address.toNat data) := by
  induction regions with
  | nil => rfl
  | cons r rest ih =>
    obtain ⟨name, base, contents⟩ := r
    obtain ⟨hr, hrest⟩ := List.pairwise_cons.mp h
    have hiff := @covers_iff_contains (name, Region.mk base contents) address data.length
    rw [writeRegionAt, List.map_cons, patched]
    by_cases hc : (Region.mk base contents).covers address data.length
    · rw [if_pos hc, if_pos (hiff.mp hc),
        map_patched_of_not_contains fun s hs => hr s hs (hiff.mp hc)]
    · rw [if_neg hc, if_neg fun h => hc (hiff.mpr h), ih hrest]

variable {m : Memory}

theorem Apart.eq_of_contains (h : m.Apart) {e e' : Extent} (he : e ∈ m.extents)
    (he' : e' ∈ m.extents) {address length : Nat} (hl : 0 < length)
    (hc : e.Contains address length) (hc' : e'.Contains address length) : e = e' := by
  by_contra hne
  have : Std.Symm Extent.Apart := ⟨fun _ _ => Extent.Apart.symm⟩
  obtain ⟨_, hd⟩ := h.apart.forall he he' hne
  obtain ⟨_, hstop⟩ := hc
  obtain ⟨_, hstop'⟩ := hc'
  omega

theorem Apart.pairwise_contains (h : m.Apart) {address length : Nat} (hl : 0 < length) :
    m.regions.Pairwise fun a b => (Extent.of a).Contains address length →
      ¬ (Extent.of b).Contains address length := by
  refine (List.pairwise_map.mp h.apart).imp fun {a b} hd ha hb => ?_
  obtain ⟨hbase, hstop⟩ := ha
  obtain ⟨hbase', hstop'⟩ := hb
  obtain ⟨_, hd⟩ := hd
  omega

theorem Apart.region_of_contains (h : m.Apart) {e : Extent} (he : e ∈ m.extents)
    {address : UInt64} {length : Nat} (hc : e.Contains address.toNat length) :
    ∃ r, m.region? e.name = some r ∧ r.base.toNat = e.base ∧ r.covers address length := by
  obtain ⟨r, hr, hbase, hsize⟩ := h.region?_of_mem he
  refine ⟨r, hr, hbase, covers_iff_contains (r := (e.name, r)) |>.mpr ?_⟩
  rwa [Extent.of, hbase, hsize]

/-- What an access at a physical address comes to. -/
structure Resolves (m : Memory) : Prop where
  /-- An access finds a buffer when one holds all of the bytes. -/
  found : ∀ (address : UInt64) (length : Nat), 0 < length →
    ((m.readAt? address length).isSome ↔ ∃ e ∈ m.extents, e.Contains address.toNat length)
  unique : ∀ address length, 0 < length → ∀ e ∈ m.extents, ∀ e' ∈ m.extents,
    e.Contains address length → e'.Contains address length → e = e'
  bytes : ∀ (address : UInt64) (length : Nat), 0 < length → ∀ e ∈ m.extents,
    e.Contains address.toNat length →
      m.readAt? address length =
        some (((m.bytes e.name).drop (address.toNat - e.base)).take length)
  /-- The order of the buffers does not matter. -/
  anyOrder : ∀ regions : List (String × Region), regions.Perm m.regions →
    (∀ (address : UInt64) (length : Nat), 0 < length →
      ({ m with regions }).readAt? address length = m.readAt? address length) ∧
    ∀ (address : UInt64) (data : List UInt8), data ≠ [] →
      (({ m with regions }).writeAt address data).regions.Perm (m.writeAt address data).regions
  /-- A write exchanges the bytes at the address, and nothing else. -/
  written : ∀ (address : UInt64) (data : List UInt8), data ≠ [] → ∀ e ∈ m.extents,
    e.Contains address.toNat data.length →
      (m.writeAt address data).next = m.next ∧ (m.writeAt address data).extents = m.extents ∧
      ∀ e' ∈ m.extents, ∀ i : Nat, ((m.writeAt address data).bytes e'.name)[i]? =
        if e' = e ∧ address.toNat ≤ e.base + i ∧ e.base + i < address.toNat + data.length then
          data[e.base + i - address.toNat]?
        else (m.bytes e'.name)[i]?
  missed : ∀ (address : UInt64) (data : List UInt8), data ≠ [] →
    (∀ e ∈ m.extents, ¬ e.Contains address.toNat data.length) → m.writeAt address data = m

theorem isSome_readAt?_iff (m : Memory) (address : UInt64) (length : Nat) :
    (m.readAt? address length).isSome ↔ ∃ e ∈ m.extents, e.Contains address.toNat length := by
  rw [readAt?, Option.isSome_map, regionAt?, Option.isSome_map, List.find?_isSome]
  constructor
  · rintro ⟨r, hr, hc⟩
    exact ⟨.of r, List.mem_map_of_mem hr, covers_iff_contains.mp hc⟩
  · rintro ⟨e, he, hc⟩
    obtain ⟨r, hr, rfl⟩ := List.mem_map.mp he
    exact ⟨r, hr, covers_iff_contains.mpr hc⟩

theorem Apart.readAt?_contains (h : m.Apart) {e : Extent} (he : e ∈ m.extents)
    {address : UInt64} {length : Nat} (hl : 0 < length) (hc : e.Contains address.toNat length) :
    m.readAt? address length =
      some (((m.bytes e.name).drop (address.toNat - e.base)).take length) := by
  obtain ⟨r, hr, hbase, hcovers⟩ := h.region_of_contains he hc
  rw [h.readAt?_eq hr hl hcovers, hbase]

theorem Apart.readAt?_perm (h : m.Apart) {regions : List (String × Region)}
    (hp : regions.Perm m.regions) {address : UInt64} {length : Nat} (hl : 0 < length) :
    ({ m with regions }).readAt? address length = m.readAt? address length := by
  have hfind := find?_eq_of_perm (p := fun r => r.2.covers address length) hp
    fun a ha b hb => h.eq_of_covers ha hb hl
  rw [readAt?, readAt?, regionAt?, regionAt?, hfind]

theorem Apart.writeAt_eq_map (h : m.Apart) {address : UInt64} {data : List UInt8}
    (hl : 0 < data.length) :
    m.writeAt address data = { m with regions := m.regions.map (patched address.toNat data) } := by
  rw [writeAt, writeRegionAt_eq_map (h.pairwise_contains hl)]

theorem Apart.writeAt_perm (h : m.Apart) {regions : List (String × Region)}
    (hp : regions.Perm m.regions) {address : UInt64} {data : List UInt8} (hl : 0 < data.length) :
    (({ m with regions }).writeAt address data).regions.Perm
      (m.writeAt address data).regions := by
  have hpairs : regions.Pairwise fun a b => (Extent.of a).Contains address.toNat data.length →
      ¬ (Extent.of b).Contains address.toNat data.length :=
    (hp.pairwise_iff fun hab hb ha => hab ha hb).mpr (h.pairwise_contains hl)
  rw [h.writeAt_eq_map hl, writeAt, writeRegionAt_eq_map hpairs]
  exact hp.map _

theorem Apart.getElem?_writeAt (h : m.Apart) {e : Extent} (he : e ∈ m.extents)
    {address : UInt64} {data : List UInt8} (hl : 0 < data.length)
    (hc : e.Contains address.toNat data.length) {e' : Extent} (he' : e' ∈ m.extents) (i : Nat) :
    ((m.writeAt address data).bytes e'.name)[i]? =
      if e' = e ∧ address.toNat ≤ e.base + i ∧ e.base + i < address.toNat + data.length then
        data[e.base + i - address.toNat]?
      else (m.bytes e'.name)[i]? := by
  obtain ⟨r, hr, hbase, hcovers⟩ := h.region_of_contains he hc
  have hlen := length_bytes h he
  have hstart : (UInt64.ofNat (address.toNat - r.base.toNat)).toNat = address.toNat - e.base := by
    rw [hbase]
    exact UInt64.toNat_ofNat_of_lt' (Nat.lt_of_le_of_lt (Nat.sub_le ..) address.toNat_lt)
  obtain ⟨hle, hstop⟩ := hc
  have hfit : (UInt64.ofNat (address.toNat - r.base.toNat)).toNat + data.length ≤
      (m.bytes e.name).length := by
    rw [hstart, hlen]
    rw [Extent.stop] at hstop
    omega
  rw [h.writeAt_eq hr hl hcovers, bytes_write hfit]
  by_cases hn : e'.name = e.name
  · have hee : e' = e := by
      by_contra hne
      have : Std.Symm Extent.Apart := ⟨fun _ _ => Extent.Apart.symm⟩
      exact (h.apart.forall he' he hne).1 hn
    subst hee
    rw [if_pos rfl, getElem?_splice hfit, hstart]
    by_cases hi : address.toNat ≤ e'.base + i ∧ e'.base + i < address.toNat + data.length
    · rw [if_pos (by omega), if_pos ⟨rfl, hi⟩]
      congr 1
      omega
    · rw [if_neg (by omega), if_neg fun hand => hi hand.2]
  · rw [if_neg hn, if_neg fun hand => hn (congrArg Extent.name hand.1)]

theorem Apart.resolves (h : m.Apart) : m.Resolves where
  found address length _ := m.isSome_readAt?_iff address length
  unique _ _ hl _ he _ he' hc hc' := h.eq_of_contains he he' hl hc hc'
  bytes _ _ hl _ he hc := h.readAt?_contains he hl hc
  anyOrder regions hp :=
    ⟨fun _ _ hl => h.readAt?_perm hp hl,
      fun _ _ hd => h.writeAt_perm hp (List.length_pos_iff.mpr hd)⟩
  written address data hd e he hc :=
    ⟨rfl, extents_writeAt .., fun _ he' i =>
      h.getElem?_writeAt he (List.length_pos_iff.mpr hd) hc he' i⟩
  missed address data hd hn := by
    rw [h.writeAt_eq_map (List.length_pos_iff.mpr hd),
      map_patched_of_not_contains fun r hr => hn (.of r) (List.mem_map_of_mem hr)]

theorem covers_overwritten (base : UInt64) (contents : ByteArray) (offset : Nat)
    (data : List UInt8) (address : UInt64) (length : Nat) :
    (Region.mk base (overwriteBytes contents offset data)).covers address length =
      (Region.mk base contents).covers address length := by
  rw [Region.covers, Region.covers, size_overwriteBytes]

theorem readAt?_writeAt {address : UInt64} {data : List UInt8}
    (h : (m.regionAt? address data.length).isSome) :
    (m.writeAt address data).readAt? address data.length = some data := by
  obtain ⟨regions, next⟩ := m
  unfold regionAt? at h
  unfold writeAt readAt? regionAt?
  simp only at h ⊢
  induction regions with
  | nil => cases h
  | cons r rest ih =>
    obtain ⟨name, base, contents⟩ := r
    rw [writeRegionAt]
    by_cases hc : (Region.mk base contents).covers address data.length
    · rw [if_pos hc, List.find?_cons_of_pos (by rw [covers_overwritten]; exact hc)]
      have hfit : address.toNat - base.toNat + data.length ≤ contents.size := by
        simp only [Region.covers, Bool.and_eq_true, decide_eq_true_eq] at hc
        exact hc.2
      rw [Option.map_some, Option.map_some, windowBytes_eq, toList_overwriteBytes hfit,
        drop_take_splice hfit]
    · have hskip : ∀ tail : List (String × Region),
          ((name, Region.mk base contents) :: tail).find? (·.2.covers address data.length) =
            tail.find? (·.2.covers address data.length) := fun _ => List.find?_cons_of_neg hc
      rw [hskip] at h
      rw [if_neg hc, hskip]
      exact ih h

end Memory

end TensorUnit.Sim
