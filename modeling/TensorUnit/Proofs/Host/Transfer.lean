import TensorUnit.Host.Mem
import TensorUnit.Proofs.Sim.Simulator
import TensorUnit.Proofs.Units

namespace TensorUnit.Host

open TensorUnit.Action (Triple Keeps)
open Remote Sim

theorem lt_ceil_iff {total size index : Nat} (hs : 0 < size) :
    index < (total + size - 1) / size ↔ index * size < total := by
  rw [Nat.lt_iff_add_one_le, Nat.le_div_iff_mul_le hs, Nat.succ_mul]
  omega

theorem toNat_position {offset : UInt64} {n : Nat} (h : offset.toNat + n < 2 ^ 64) :
    (offset + .ofNat n).toNat = offset.toNat + n := by
  have hn : (UInt64.ofNat n).toNat = n := UInt64.toNat_ofNat_of_lt' (by change _ < 2 ^ 64; omega)
  rw [UInt64.toNat_add, hn]
  exact Nat.mod_eq_of_lt h

section Reports

variable {σ α : Type} {P F : σ → Prop} {Q : α → σ → Prop}

theorem triple_ofSpec {r : Except SpecError α} (h : ∀ x s, r = .ok x → P s → Q x s)
    (he : ∀ s, P s → F s) : Triple P (ofSpec r : Action σ DriverError α) Q F := by
  refine Triple.ofExcept (fun x s hr => h x s ?_) he
  cases r with
  | error e => cases hr
  | ok y =>
    cases hr
    rfl

theorem ofSpec_run_eq_ok {r : Except SpecError α} {s t : σ} {x : α}
    (h : (ofSpec r : Action σ DriverError α).run s = (.ok x, t)) : r = .ok x ∧ s = t := by
  cases r with
  | error e => cases h
  | ok y =>
    cases h
    exact ⟨rfl, rfl⟩

theorem triple_ofEncode {r : Except EncodeError α} (h : ∀ x s, r = .ok x → P s → Q x s)
    (he : ∀ s, P s → F s) : Triple P (ofEncode r : Action σ DriverError α) Q F := by
  refine Triple.ofExcept (fun x s hr => h x s ?_) he
  cases r with
  | error e => cases hr
  | ok y =>
    cases hr
    rfl

end Reports

/-- A write from an offset of a buffer on: `I n` holds when the first `n` bytes are written,
whatever the unit does meanwhile, and `E` when the write ends early. -/
structure Fills (buffer : String) (offset : Nat) (data : List UInt8) (I : Nat → Machine → Prop)
    (E : Machine → Prop) : Prop where
  write : ∀ n chunk position m, I n m → n + chunk.length ≤ data.length →
    chunk = (data.drop n).take chunk.length → position.toNat = offset + n →
    (m.memory.region? buffer).isSome →
    offset + n + chunk.length ≤ (m.memory.bytes buffer).length →
    I (n + chunk.length) { m with memory := m.memory.write buffer position chunk }
  step : ∀ n, Triple (I n) Machine.executeNext (fun _ => I n) E
  stop : ∀ n m, I n m → E m
  small : ∀ n m, I n m → (m.memory.bytes buffer).length < 2 ^ 64

/-- A read of a window of a buffer: `I done` holds when the pieces in `done` are read, the last one
first. -/
structure Reads (buffer : String) (offset total : Nat) (I : List (List UInt8) → Machine → Prop)
    (E : Machine → Prop) : Prop where
  read : ∀ done start length m, I done m → start + length ≤ total →
    I (((m.memory.bytes buffer).drop (offset + start)).take length :: done) m
  step : ∀ done, Triple (I done) Machine.executeNext (fun _ => I done) E
  stop : ∀ done m, I done m → E m

section Chunks

variable {σ : Type} [Service σ] {buffer : String} {offset : UInt64} {data : List UInt8}
  {size : Nat} {I : Nat → σ → Prop} {E : σ → Prop}

/-- A write in chunks, each a call of its own: `I n` holds when the first `n` bytes are written, and
`E` when a chunk has failed. -/
def Writes (buffer : String) (offset : UInt64) (data : List UInt8) (size : Nat)
    (I : Nat → σ → Prop) (E : σ → Prop) : Prop :=
  ∀ n chunk, 0 < chunk.length → chunk.length ≤ size → n + chunk.length ≤ data.length →
    chunk = (data.drop n).take chunk.length →
    Triple (I n)
      (execute [.bufferWrite buffer (offset + .ofNat n) chunk] : Action σ RemoteError _)
      (fun _ => I (n + chunk.length)) E

theorem Writes.chunks (h : Writes buffer offset data size I E) (hs : 0 < size) (index count : Nat)
    (hc : index + count = (data.length + size - 1) / size) :
    Triple (I (min (index * size) data.length))
      (writeChunks buffer offset size index
        ((List.range' index count).map fun i => (data.drop (i * size)).take size))
      (fun _ => I data.length) E := by
  induction count generalizing index with
  | zero =>
    have hle : data.length ≤ index * size :=
      Nat.not_lt.mp fun hlt => Nat.ne_of_lt ((lt_ceil_iff hs).mpr hlt) hc
    rw [Nat.min_eq_right hle]
    exact Triple.pure fun _ h => h
  | succ count ih =>
    have hlt : index * size < data.length := (lt_ceil_iff hs).mp (by omega)
    have hlen : ((data.drop (index * size)).take size).length =
        min size (data.length - index * size) := by
      rw [List.length_take, List.length_drop]
    have hnext : index * size + ((data.drop (index * size)).take size).length =
        min ((index + 1) * size) data.length := by
      rw [hlen, Nat.succ_mul]
      omega
    rw [List.range'_succ, List.map_cons, Nat.min_eq_left (Nat.le_of_lt hlt)]
    refine Triple.bind (Q := fun _ => I (min ((index + 1) * size) data.length)) ?_
      fun _ => ih (index + 1) (by omega)
    rw [← hnext]
    refine Triple.mapError (h _ _ (by omega) (by omega) (by omega) ?_)
    rw [hlen, List.take_eq_take_min, List.length_drop]

theorem Writes.chunked (h : Writes buffer offset data size I E) (hE : ∀ s, I 0 s → E s) :
    Triple (I 0) (writeChunked buffer offset data size) (fun _ => I data.length) E := by
  refine Triple.bind (Q := fun _ => I 0) ?_ fun _ => ?_
  · apply Triple.bind (Q := fun _ => I 0) (Triple.view fun _ h => h)
    intro up
    exact Triple.require (fun _ _ h => h) fun s _ => hE s
  apply Triple.bind (Q := fun _ => I 0) (Triple.view fun _ h => h)
  intro limit
  refine Triple.bind (Q := fun _ s => 0 < size ∧ I 0 s)
    (Triple.require (fun _ hs h => ⟨hs.1, h⟩) fun s _ => hE s) fun _ => Triple.assume fun hs => ?_
  have hchunks := h.chunks hs 0 ((data.length + size - 1) / size) (Nat.zero_add _)
  rw [Nat.zero_mul, Nat.zero_min] at hchunks
  rw [Bytes.chunks, Bytes.pieces_eq, List.range_eq_range']
  exact hchunks

end Chunks

namespace Mem

variable {m : Mem} {length : UInt64}

theorem check_eq_ok_iff {offset : ByteOffset} :
    m.check offset length = .ok () ↔ offset.val.toNat + length.toNat ≤ m.sizeBytes.toNat := by
  unfold check
  split
  · exact ⟨fun _ => ‹_›, fun _ => rfl⟩
  · exact ⟨fun h => (nomatch h), fun h => absurd h ‹_›⟩

theorem toNat_bytesOf (m : Mem) (length : UInt64) :
    (m.bytesOf length).toNat = min (length.toNat * m.units.scalarBytes.toNat) (2 ^ 64 - 1) := by
  unfold bytesOf
  cases hm : Exact.mul? length m.units.scalarBytes with
  | some total =>
    have htotal := Exact.mul?_eq_some_iff.mp hm
    have hlt := total.toNat_lt
    rw [Option.getD_some, htotal]
    omega
  | none =>
    have hlarge := Exact.ofNat?_eq_none_iff.mp hm
    rw [Option.getD_none, Nat.min_eq_right (by omega)]
    rfl

theorem le_readSize (limit : Nat) : m.units.scalarBytes.toNat ≤ m.readSize limit :=
  Nat.le_mul_of_pos_left _ (Nat.lt_of_lt_of_le Nat.zero_lt_one (Nat.le_max_right ..))

theorem readSize_pos (m : Mem) (hs : 0 < m.units.scalarBytes.toNat) (limit : Nat) :
    0 < m.readSize limit :=
  Nat.lt_of_lt_of_le hs (m.le_readSize limit)

theorem readSize_le_max (m : Mem) (limit : Nat) :
    m.readSize limit ≤ max limit m.units.scalarBytes.toNat := by
  have hdiv : min m.chunkSize limit / m.units.scalarBytes.toNat * m.units.scalarBytes.toNat ≤
      limit :=
    Nat.le_trans (Nat.div_mul_le_self ..) (Nat.min_le_right ..)
  change max _ 1 * _ ≤ _
  rcases Nat.le_total (min m.chunkSize limit / m.units.scalarBytes.toNat) 1 with hone | hmany
  · rw [Nat.max_eq_right hone, Nat.one_mul]
    exact Nat.le_max_right ..
  · rw [Nat.max_eq_left hmany]
    exact Nat.le_trans hdiv (Nat.le_max_left ..)

end Mem

section Pieces

variable {σ : Type} [Service σ] {m : Mem}

/-- Windows are read one behind the other: `R n` holds of the bytes that are read when these are the
first `n`. -/
theorem triple_assembled {W F : σ → Prop} {R : Nat → List UInt8 → Prop} {offset : UInt64}
    {total size : Nat} (hs : 0 < size)
    (h : ∀ start length bytes, length ≤ size → start + length ≤ total → R start bytes →
      Triple W (m.readWindow offset (start, length))
        (fun piece w => R (start + length) (bytes ++ piece) ∧ W w) F)
    (index count : Nat) (hc : index + count = Mem.windowCount total size)
    {done : List (List UInt8)} (hdone : R (min (index * size) total) done.reverse.flatten) :
    Triple W (m.readWindows offset total size index done count)
      (fun pieces w => R total pieces.flatten ∧ W w) F := by
  induction count generalizing index done with
  | zero =>
    have hle : total ≤ index * size :=
      Nat.not_lt.mp fun hlt => Nat.ne_of_lt ((lt_ceil_iff hs).mpr hlt) hc
    rw [Nat.min_eq_right hle] at hdone
    exact Triple.pure fun _ h => ⟨hdone, h⟩
  | succ count ih =>
    have hlt : index * size < total := by
      unfold Mem.windowCount at hc
      exact (lt_ceil_iff hs).mp (by omega)
    rw [Nat.min_eq_left (Nat.le_of_lt hlt)] at hdone
    refine (h (index * size) (min size (total - index * size)) _ (by omega) (by omega) hdone).bind
      fun piece => Triple.assume fun hpiece => ih (index + 1) (by omega) ?_
    have hnext : min ((index + 1) * size) total =
        index * size + min size (total - index * size) := by
      rw [Nat.succ_mul]
      omega
    rw [hnext, List.reverse_cons, List.flatten_append, List.flatten_cons, List.flatten_nil,
      List.append_nil]
    exact hpiece

theorem triple_pieces {W F : σ → Prop} {offset : UInt64} {total size : Nat} {bytes : List UInt8}
    (hs : 0 < size)
    (h : ∀ start length, length ≤ size → start + length ≤ total →
      Triple W (m.readWindow offset (start, length))
        (fun piece w => piece = (bytes.drop (offset.toNat + start)).take length ∧ W w) F) :
    Triple W (m.readWindows offset total size 0 [] (Mem.windowCount total size))
      (fun pieces w => pieces.flatten = (bytes.drop offset.toNat).take total ∧ W w) F := by
  refine triple_assembled (R := fun n read => read = (bytes.drop offset.toNat).take n) hs
    (fun start length read hl ht hread => (h start length hl ht).relax ?_) 0 _ (Nat.zero_add _) ?_
  · rintro piece w ⟨rfl, hw⟩
    rw [hread, List.take_add, List.drop_drop]
    exact ⟨rfl, hw⟩
  · rw [Nat.zero_mul, Nat.zero_min]
    rfl

theorem Mem.triple_decoded {P F : σ → Prop} {Q : List (List UInt8) → σ → Prop}
    {address : ScalarAddress} {length : UInt64} (hs : 0 < m.units.scalarBytes.toNat)
    (hstop : ∀ s, P s → F s)
    (h : ∀ (offset : UInt64) size, address.val.toNat * m.units.scalarBytes.toNat = offset.toNat →
      offset.toNat + length.toNat * m.units.scalarBytes.toNat < 2 ^ 64 → 0 < size →
      (∃ s, P s ∧ m.readSize (maxPayload s) = size) →
      Triple P (m.readWindows offset (length.toNat * m.units.scalarBytes.toNat) size 0 []
        (windowCount (length.toNat * m.units.scalarBytes.toNat) size)) Q F) :
    Triple P (m.read address length)
      (fun values s => ∃ pieces, values = m.dataType.ofBytes pieces.flatten ∧ Q pieces s) F := by
  refine Triple.bind (Q := fun offset s => m.units.bytes address = .ok offset ∧ P s)
    (triple_ofSpec (fun offset s ho hp => ⟨ho, hp⟩) hstop) fun offset => Triple.assume fun ho => ?_
  refine Triple.bind (Q := fun _ s => m.check offset (m.bytesOf length) = .ok () ∧ P s)
    (Triple.ofExcept (fun _ s hr hp => ⟨hr, hp⟩) hstop) fun _ => Triple.assume fun hcheck => ?_
  refine Triple.bind (Q := fun _ => P) ?_ fun _ => ?_
  · apply Triple.bind (Q := fun _ => P) (Triple.view fun _ h => h)
    intro up
    exact Triple.require (fun _ _ h => h) fun _ _ => hstop _
  refine Triple.bind (Q := fun _ s => (m.bytesOf length).toNat < byteLimit ∧ P s)
    (Triple.require (fun _ hb h => ⟨hb, h⟩) fun _ _ => hstop _) fun _ => Triple.assume fun hb => ?_
  refine Triple.bind (Q := fun size s =>
    (0 < size ∧ ∃ s, P s ∧ m.readSize (maxPayload s) = size) ∧ P s)
    (Triple.view fun s hp => ⟨⟨m.readSize_pos hs _, s, hp, rfl⟩, hp⟩) fun size =>
      Triple.assume fun ⟨hpos, hsize⟩ => ?_
  have htotal : length.toNat * m.units.scalarBytes.toNat = (m.bytesOf length).toNat := by
    rw [toNat_bytesOf, byteLimit] at hb
    rw [toNat_bytesOf]
    omega
  have hfit : offset.val.toNat + (m.bytesOf length).toNat < 2 ^ 64 :=
    Nat.lt_of_le_of_lt (check_eq_ok_iff.mp hcheck) m.sizeBytes.toNat_lt
  rw [htotal] at h
  apply (h offset.val size (AddressUnits.bytes_eq_ok_iff.mp ho) hfit hpos hsize).bind
  intro pieces
  exact Triple.pure fun _ hp => ⟨pieces, rfl, hp⟩

end Pieces

variable {layout : Tcu.Layout} {E : Machine → Prop}

section Writes

variable {buffer : String} {offset : UInt64} {data : List UInt8} {I : Nat → Machine → Prop}

def Filled (layout : Tcu.Layout) (offset : UInt64) (data : List UInt8) (I : Nat → Machine → Prop)
    (n : Nat) (w : Switch Simulator) : Prop :=
  (n < data.length → offset.toNat + n < 2 ^ 64) ∧ On layout (I n) w

theorem filled_zero {w : Switch Simulator} (h : On layout (I 0) w) :
    Filled layout offset data I 0 w :=
  ⟨fun _ => offset.toNat_lt, h⟩

theorem Fills.writes (h : Fills buffer offset.toNat data I E) {size : Nat} (hl : size < 2 ^ 64) :
    Writes buffer offset data size (Filled layout offset data I) (On layout E) := by
  intro n chunk hpos hsize hn hchunk
  refine Triple.assume fun hwrap => ?_
  have hsum := hwrap (by omega)
  have hp := toNat_position hsum
  refine Triple.relax (Q := fun _ => On layout fun m =>
    (n + chunk.length < data.length → offset.toNat + (n + chunk.length) < 2 ^ 64) ∧
      I (n + chunk.length) m) ?_ fun _ w hw => hw.of_and
  refine On.triple_send (Simulator.triple_write (h.stop _) (by omega) ?_ ?_) (h.stop _)
  · intro m hm hsome hfit
    have hsmall := h.small _ m hm
    rw [hp] at hfit
    exact ⟨fun _ => by omega, h.write _ _ _ m hm hn hchunk hp hsome hfit⟩
  · apply Triple.assume
    intro hmore
    exact (h.step _).relax fun _ _ hm => ⟨hmore, hm⟩

theorem triple_writeChunked (h : Fills buffer offset.toNat data I E) {size : Nat}
    (hl : size < 2 ^ 64) :
    Triple (On layout (I 0)) (writeChunked buffer offset data size)
      (fun _ => On layout (I data.length)) (On layout E) :=
  ((h.writes hl).chunked fun _ hw => hw.2.mono (h.stop 0)).weaken (fun _ hw => filled_zero hw)
    (fun _ _ hw => hw.2) fun _ h => h

end Writes

section Windows

variable {m : Mem} {offset : UInt64} {total : Nat} {I : List (List UInt8) → Machine → Prop}

theorem triple_readWindow {P : Machine → Prop} {R : List UInt8 → Machine → Prop}
    {start length : Nat} (hfit : offset.toNat + (start + length) < 2 ^ 64)
    (hread : ∀ mach, P mach →
      R (((mach.memory.bytes m.name).drop (offset.toNat + start)).take length) mach)
    (hstep : ∀ piece, Triple (R piece) Machine.executeNext (fun _ => R piece) E)
    (hstop : ∀ mach, P mach → E mach) :
    Triple (On layout P) (m.readWindow offset (start, length)) (fun piece => On layout (R piece))
      (On layout E) := by
  have hl : (UInt64.ofNat length).toNat = length :=
    UInt64.toNat_ofNat_of_lt' (by change _ < 2 ^ 64; omega)
  have hp : (offset + .ofNat start).toNat = offset.toNat + start := toNat_position (by omega)
  have hcall : Triple (On layout P)
      (execute [.bufferRead m.name (offset + .ofNat start) (.ofNat length)] :
        Action (Switch Simulator) RemoteError _)
      (fun rs => On layout fun mach => ∃ data, rs = [.data data] ∧ R data mach)
      (On layout E) := by
    refine On.triple_send (Simulator.triple_read hstop (fun mach hm _ _ => ?_) hstep) hstop
    rw [Memory.read_eq, hp, hl]
    exact hread mach hm
  apply (Triple.mapError hcall).bind
  intro rs
  rintro w ⟨hplan, hlayout, data, rfl, hm⟩
  exact ⟨hplan, hlayout, hm⟩

theorem triple_readWindows (h : Reads m.name offset.toNat total I E)
    (hfit : offset.toNat + total < 2 ^ 64) {size : Nat} (hs : 0 < size) (index count : Nat)
    (hc : index + count = Mem.windowCount total size) (done : List (List UInt8)) :
    Triple (On layout (I done)) (m.readWindows offset total size index done count)
      (fun pieces => On layout fun mach => ∃ done, pieces = done.reverse ∧ I done mach)
      (On layout E) := by
  induction count generalizing index done with
  | zero => exact Triple.pure fun _ hw => hw.mono fun mach hm => ⟨done, rfl, hm⟩
  | succ count ih =>
    have hlt : index * size < total := by
      unfold Mem.windowCount at hc
      exact (lt_ceil_iff hs).mp (by omega)
    refine (triple_readWindow (R := fun piece => I (piece :: done)) (by omega)
      (fun mach hm => h.read done _ _ mach hm (by omega)) (fun _ => h.step _) (h.stop done)).bind
      fun piece => ih (index + 1) (by omega) _

end Windows

namespace Mem

variable {m : Mem}

theorem triple_writeRaw {offset : ByteOffset} {bytes : List UInt8} {I : Nat → Machine → Prop}
    (h : Fills m.name offset.val.toNat bytes I E) (hl : m.chunkSize < 2 ^ 64) :
    Triple (On layout (I 0)) (m.writeRaw offset bytes) (fun _ => On layout (I bytes.length))
      (On layout E) := by
  refine Triple.bind (Q := fun _ => On layout (I 0))
    (Triple.ofExcept (fun _ _ _ h => h) fun _ hw => hw.mono (h.stop 0)) fun _ => ?_
  exact (triple_writeChunked h hl).bind fun _ => Triple.pure fun _ h => h

theorem triple_writeBytes {offset : ByteOffset} {bytes : List UInt8} {I : Nat → Machine → Prop}
    (h : Fills m.name offset.val.toNat bytes I E) (hl : m.chunkSize < 2 ^ 64) :
    Triple (On layout (I 0)) (m.writeBytes offset bytes) (fun _ => On layout (I bytes.length))
      (On layout E) := by
  have hspec : ∀ {β : Type} {r : Except SpecError β}, Triple (On layout (I 0))
      (ofSpec r : Action (Switch Simulator) DriverError β) (fun _ => On layout (I 0))
      (On layout E) :=
    triple_ofSpec (fun _ _ _ h => h) fun _ hw => hw.mono (h.stop 0)
  exact hspec.bind fun _ => hspec.bind fun _ => triple_writeRaw h hl

theorem triple_write {address : ScalarAddress} {values : List Int}
    {I : List UInt8 → Nat → Machine → Prop} {P : Machine → Prop}
    (h : ∀ bytes, m.dataType.toBytes values = .ok bytes →
      Fills m.name (address.val.toNat * m.units.scalarBytes.toNat) bytes (I bytes) E ∧
        ∀ mach, P mach → I bytes 0 mach)
    (hP : ∀ mach, P mach → E mach) (hl : m.chunkSize < 2 ^ 64) :
    Triple (On layout P) (m.write address values)
      (fun _ => On layout fun mach => ∃ bytes, m.dataType.toBytes values = .ok bytes ∧
        I bytes bytes.length mach) (On layout E) := by
  have hP' : ∀ w, On layout P w → On layout E w := fun _ hw => hw.mono hP
  refine Triple.bind
    (Q := fun bytes w => m.dataType.toBytes values = .ok bytes ∧ On layout P w)
    (triple_ofSpec (fun bytes w hb hw => ⟨hb, hw⟩) hP') fun bytes => Triple.assume fun hb => ?_
  obtain ⟨hfill, hstart⟩ := h bytes hb
  refine Triple.bind (Q := fun offset w => m.units.bytes address = .ok offset ∧ On layout P w)
    (triple_ofSpec (fun offset w ho hw => ⟨ho, hw⟩) hP') fun offset => Triple.assume fun ho => ?_
  rw [AddressUnits.bytes_eq_ok_iff.mp ho] at hfill
  refine (triple_writeRaw hfill hl).weaken (fun w hw => hw.mono hstart) (fun _ w hw => ?_)
    fun _ h => h
  exact hw.mono fun mach hm => ⟨bytes, hb, hm⟩

theorem triple_read {address : ScalarAddress} {length : UInt64}
    {I : List (List UInt8) → Machine → Prop} (hs : 0 < m.units.scalarBytes.toNat)
    (h : Reads m.name (address.val.toNat * m.units.scalarBytes.toNat)
      (length.toNat * m.units.scalarBytes.toNat) I E) :
    Triple (On layout (I [])) (m.read address length)
      (fun values => On layout fun mach =>
        ∃ done, values = m.dataType.ofBytes done.reverse.flatten ∧ I done mach)
      (On layout E) := by
  refine (triple_decoded hs (fun _ hw => hw.mono (h.stop [])) fun offset size ho hfit hpos _ =>
    triple_readWindows (ho ▸ h) hfit hpos 0 _ (Nat.zero_add _) []).relax ?_
  rintro values w ⟨_, rfl, hw⟩
  refine hw.mono ?_
  rintro mach ⟨done, rfl, hm⟩
  exact ⟨done, rfl, hm⟩

theorem triple_read_idle {mach : Machine} (hq : mach.device.queue = [])
    {address : ScalarAddress} {length : UInt64} (hs : 0 < m.units.scalarBytes.toNat) :
    Triple (On layout (· = mach)) (m.read address length)
      (fun values w => values = m.dataType.ofBytes (((mach.memory.bytes m.name).drop
        (address.val.toNat * m.units.scalarBytes.toNat)).take
          (length.toNat * m.units.scalarBytes.toNat)) ∧ On layout (· = mach) w)
      (On layout (· = mach)) := by
  have hidle : ∀ {m' : Machine}, m' = mach → m'.device.queue = [] := fun h => h ▸ hq
  have hwindow : ∀ {offset : UInt64} {total : Nat}, offset.toNat + total < 2 ^ 64 →
      ∀ start len, start + len ≤ total →
      Triple (On layout (· = mach)) (m.readWindow offset (start, len))
        (fun piece w => piece = ((mach.memory.bytes m.name).drop (offset.toNat + start)).take len ∧
          On layout (· = mach) w) (On layout (· = mach)) := by
    intro offset total hfit start len hw
    refine (triple_readWindow (P := (· = mach)) (E := (· = mach)) (R := fun piece m' => piece =
      ((mach.memory.bytes m.name).drop (offset.toNat + start)).take len ∧ m' = mach)
      (by omega) ?_ (fun _ => Banks.triple_idle fun _ h => hidle h.2) fun _ h => h).relax
      fun _ _ h => h.of_and
    rintro _ rfl
    exact ⟨rfl, rfl⟩
  refine (triple_decoded (Q := fun pieces w => pieces.flatten = ((mach.memory.bytes m.name).drop
    (address.val.toNat * m.units.scalarBytes.toNat)).take
      (length.toNat * m.units.scalarBytes.toNat) ∧ On layout (· = mach) w) hs (fun _ hw => hw)
    fun offset size ho hfit hpos _ => ?_).relax ?_
  · rw [ho]
    exact triple_pieces hpos fun start len _ hw => hwindow hfit start len hw
  · rintro values w ⟨pieces, rfl, hp, hw⟩
    rw [hp]
    exact ⟨rfl, hw⟩

end Mem

end TensorUnit.Host
