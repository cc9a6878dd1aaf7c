import TensorUnit.Proofs.Host.Storage

namespace TensorUnit.Host

open TensorUnit.Action (Triple)
open Remote

structure Exchange where
  batch : Batch
  responses : List Response
  deriving DecidableEq, Repr

def Exchange.data? (x : Exchange) : Option (List UInt8) :=
  x.responses.head?.bind Response.data?

/-- The calls from a state of an instance to another, all of which succeed. -/
inductive Exchanged {σ : Type} [Service σ] : σ → List Exchange → σ → Prop where
  | nil (s : σ) : Exchanged s [] s
  | cons {s t u : σ} {x : Exchange} {rest : List Exchange}
      (call : (execute x.batch).run s = (.ok x.responses, t)) (more : Exchanged t rest u) :
      Exchanged s (x :: rest) u

theorem Exchanged.run {σ : Type} [Service σ] {s t : σ} {xs : List Exchange}
    (h : Exchanged s xs t) :
    ((xs.map Exchange.batch).mapM execute).run s = (.ok (xs.map Exchange.responses), t) := by
  induction h with
  | nil s => rfl
  | cons call _ ih =>
    simp only [List.map_cons, List.mapM_cons, Action.bind_run, call, ih, Action.pure_run]

namespace Mem

def request (m : Mem) (offset : UInt64) (total size index : Nat) : Batch :=
  let (start, length) := window total size index
  [.bufferRead m.name (offset + .ofNat start) (.ofNat length)]

variable {m : Mem} {σ : Type} [Service σ] {offset : UInt64} {total size : Nat} {s t : σ}

theorem exchanged_window {index : Nat} {piece : List UInt8}
    (h : (m.readWindow offset (window total size index)).run s = (.ok piece, t)) :
    ∃ x : Exchange, x.batch = m.request offset total size index ∧ x.data? = some piece ∧
      (execute x.batch).run s = (.ok x.responses, t) := by
  rw [readWindow, Action.mapError_bind_run] at h
  cases hr : (execute [.bufferRead m.name (offset + .ofNat (window total size index).1)
    (.ofNat (window total size index).2)] : Action σ RemoteError _).run s with
  | mk r u =>
    rw [hr] at h
    cases r with
    | error e => cases h
    | ok responses =>
      simp only at h
      split at h
      · cases h
        exact ⟨⟨_, responses⟩, rfl, ‹_›, hr⟩
      · cases h

theorem exchanged_windows {s : σ} {index count : Nat} {done pieces : List (List UInt8)}
    (h : (m.readWindows offset total size index done count).run s = (.ok pieces, t)) :
    ∃ xs answers, Exchanged s xs t ∧
      xs.map Exchange.batch = (List.range' index count).map (m.request offset total size) ∧
      xs.map Exchange.data? = answers.map some ∧ pieces = done.reverse ++ answers := by
  induction count generalizing s index done with
  | zero =>
    cases h
    exact ⟨[], [], .nil _, rfl, rfl, (List.append_nil _).symm⟩
  | succ count ih =>
    obtain ⟨piece, u, hp, hrest⟩ := Action.exists_of_bind_run h
    obtain ⟨x, hx, hdata, hcall⟩ := exchanged_window hp
    obtain ⟨xs, answers, hxs, hrequests, hanswers, rfl⟩ := ih hrest
    refine ⟨x :: xs, piece :: answers, .cons hcall hxs, ?_, ?_, ?_⟩
    · rw [List.map_cons, hx, hrequests, List.range'_succ, List.map_cons]
    · rw [List.map_cons, hdata, hanswers, List.map_cons]
    · rw [List.reverse_cons, List.append_assoc, List.singleton_append]

/-- The instance has been asked for the windows of a read one behind the other, and the first
response to each request was one of these pieces. -/
def Asked (m : Mem) (address : ScalarAddress) (length : UInt64) (s : σ)
    (pieces : List (List UInt8)) (t : σ) : Prop :=
  let total := length.toNat * m.units.scalarBytes.toNat
  let size := m.readSize (maxPayload s)
  ∃ (offset : UInt64) (xs : List Exchange),
    offset.toNat = address.val.toNat * m.units.scalarBytes.toNat ∧ Exchanged s xs t ∧
    xs.map Exchange.batch =
      (List.range (windowCount total size)).map (m.request offset total size) ∧
    xs.map Exchange.data? = pieces.map some

/-- A read that succeeds gives the scalars in the pieces that it was answered. -/
theorem exists_asked (hs : 0 < m.units.scalarBytes.toNat) {address : ScalarAddress}
    {length : UInt64} {values : List Int} (h : (m.read address length).run s = (.ok values, t)) :
    ∃ pieces, values = m.dataType.ofBytes pieces.flatten ∧
      Asked m address length s pieces t := by
  have hread : Triple (· = s) (m.read address length) (fun values t =>
      ∃ pieces, values = m.dataType.ofBytes pieces.flatten ∧ Asked m address length s pieces t)
      fun _ => True := by
    refine triple_decoded hs (fun _ _ => trivial) fun offset size ho _ _ hsize => ?_
    obtain ⟨_, rfl, rfl⟩ := hsize
    refine .of_run (fun _ pieces t hp hr => ?_) fun _ _ _ _ _ => trivial
    obtain ⟨xs, answers, hxs, hrequests, hanswers, rfl⟩ := exchanged_windows hr
    subst hp
    exact ⟨offset, xs, ho.symm, hxs, hrequests.trans (by rw [List.range_eq_range']), hanswers⟩
  exact hread.ok rfl h

def readScalars (m : Mem) (maxPayload : Nat) : Nat :=
  max (min m.chunkSize maxPayload / m.units.scalarBytes.toNat) 1

theorem readSize_eq (m : Mem) (maxPayload : Nat) :
    m.readSize maxPayload = m.readScalars maxPayload * m.units.scalarBytes.toNat := rfl

theorem Asked.length {address : ScalarAddress} {length : UInt64} {pieces : List (List UInt8)}
    (h : Asked m address length s pieces t) : pieces.length =
      windowCount (length.toNat * m.units.scalarBytes.toNat) (m.readSize (maxPayload s)) := by
  obtain ⟨_, xs, _, _, hrequests, hdata⟩ := h
  have hcalls := congrArg List.length hrequests
  have hpieces := congrArg List.length hdata
  rw [List.length_map, List.length_map, List.length_range] at hcalls
  rw [List.length_map, List.length_map] at hpieces
  exact hpieces.symm.trans hcalls

section Pieces

variable {pieces : List (List UInt8)} (hsize : 0 < size)
  (hcount : pieces.length = windowCount total size)
  (hlength : ∀ k piece, pieces[k]? = some piece → piece.length = (window total size k).2)
include hsize hcount hlength

theorem length_pieces_before (k : Nat) :
    (pieces.take k).flatten.length = min (k * size) total := by
  induction k with
  | zero => rw [Nat.zero_mul, Nat.zero_min, List.take_zero, List.flatten_nil, List.length_nil]
  | succ k ih =>
    rw [List.take_add_one, List.flatten_append, List.length_append, ih, Nat.succ_mul]
    cases hk : pieces[k]? with
    | none =>
      have hle : windowCount total size ≤ k := hcount ▸ List.getElem?_eq_none_iff.mp hk
      have hend : total ≤ k * size :=
        Nat.not_lt.mp fun h => Nat.not_lt.mpr hle ((lt_ceil_iff hsize).mpr h)
      rw [Option.toList_none, List.flatten_nil, List.length_nil]
      omega
    | some piece =>
      rw [Option.toList_some, List.flatten_singleton, hlength k piece hk, window]
      omega

theorem length_pieces : pieces.flatten.length = total := by
  have hend : total ≤ pieces.length * size :=
    Nat.not_lt.mp fun h => Nat.lt_irrefl _ (hcount ▸ (lt_ceil_iff hsize).mpr h)
  have hall := length_pieces_before hsize hcount hlength pieces.length
  rwa [List.take_length, Nat.min_eq_right hend] at hall

end Pieces

/-- A read that succeeds gives the scalars in the first response to each of its requests. If the
data of each are as long as they were asked for, these are as many scalars as were asked for, and
those of a response stand where its request asked for them. -/
theorem read_placed (hm : m.Typed) {address : ScalarAddress} {length : UInt64} {values : List Int}
    (h : (m.read address length).run s = (.ok values, t)) :
    ∃ pieces, values = m.dataType.ofBytes pieces.flatten ∧
      Asked m address length s pieces t ∧
      ((∀ k piece, pieces[k]? = some piece → piece.length =
          (window (length.toNat * m.units.scalarBytes.toNat) (m.readSize (maxPayload s)) k).2) →
        values.length = length.toNat ∧
        ∀ k piece, pieces[k]? = some piece →
          (values.drop (k * m.readScalars (maxPayload s))).take
              (min (m.readScalars (maxPayload s))
                (length.toNat - k * m.readScalars (maxPayload s))) =
            m.dataType.ofBytes piece) := by
  have hpos := scalarBytes_pos m.dataType
  obtain ⟨pieces, rfl, hasked⟩ := exists_asked (hm ▸ hpos) h
  refine ⟨pieces, rfl, hasked, fun hlength => ?_⟩
  have hcount := hasked.length
  rw [hm] at hlength hcount
  have hsize := m.readSize_pos (hm ▸ hpos) (maxPayload s)
  have hbytes := length_pieces hsize hcount hlength
  refine ⟨?_, fun k piece hk => ?_⟩
  · rw [DataType.length_ofBytes, hbytes, Nat.mul_div_cancel _ hpos]
  obtain ⟨hlt, rfl⟩ := List.getElem?_eq_some_iff.mp hk
  have hmore : k * m.readSize (maxPayload s) < length.toNat * m.dataType.scalarBytes :=
    (lt_ceil_iff hsize).mp (Nat.lt_of_lt_of_eq hlt hcount)
  have hfirst := length_pieces_before hsize hcount hlength k
  have hpiece := hlength k _ hk
  rw [Nat.min_eq_left (Nat.le_of_lt hmore), readSize_eq, hm, ← Nat.mul_assoc] at hfirst
  rw [window, readSize_eq, hm, ← Nat.mul_assoc, ← Nat.sub_mul, Nat.mul_min_mul_right] at hpiece
  have hsplit : pieces.flatten =
      (pieces.take k).flatten ++ (pieces[k] ++ (pieces.drop (k + 1)).flatten) := by
    rw [← List.flatten_cons, ← List.drop_eq_getElem_cons hlt, ← List.flatten_append,
      List.take_append_drop]
  rw [hsplit, DataType.ofBytes_append _ _ (by rw [hfirst, Nat.mul_mod_left]),
    DataType.ofBytes_append _ _ (by rw [hpiece, Nat.mul_mod_left]), List.drop_left',
    List.take_left']
  · rw [DataType.length_ofBytes, hpiece, Nat.mul_div_cancel _ hpos]
  · rw [DataType.length_ofBytes, hfirst, Nat.mul_div_cancel _ hpos]

def written : Switch Sim.Simulator :=
  ((threeScalars.write ⟨1⟩ [3, -1]).run (twoBuffers 2 ⟨[], none, none⟩)).2

/-- The scalars are read one by one, and the second request finds the second of them. -/
theorem read_placed_written :
    threeScalars.Typed ∧ ∃ values pieces t,
      (threeScalars.read ⟨1⟩ 2).run written = (.ok values, t) ∧
      Asked threeScalars ⟨1⟩ 2 written pieces t ∧ pieces = [[3, 0], [255, 255]] ∧
      values.length = 2 ∧ (values.drop 1).take 1 = [-1] := by
  rcases hrun : (threeScalars.read ⟨1⟩ 2).run written with ⟨r, t⟩
  have hvalues : ((threeScalars.read ⟨1⟩ 2).run written).1 = .ok [3, -1] := by decide +kernel
  obtain rfl : r = .ok [3, -1] := (congrArg Prod.fst hrun).symm.trans hvalues
  obtain ⟨pieces, -, hasked, hplaced⟩ := read_placed (rfl : threeScalars.Typed) hrun
  have hpieces : pieces = [[3, 0], [255, 255]] := by
    obtain ⟨offset, xs, ho, hxs, hrequests, hdata⟩ := hasked
    obtain rfl : offset = 2 := UInt64.toNat_inj.mp ho
    have hanswers : (((List.range 2).map (threeScalars.request 2 4 2)).mapM
        (execute : Batch → Action (Switch Sim.Simulator) RemoteError _) |>.run written).1 =
          .ok [[.data [3, 0]], [.data [255, 255]]] := by decide +kernel
    have hbatches := hxs.run
    rw [hrequests] at hbatches
    have hresponses : xs.map Exchange.responses = [[.data [3, 0]], [.data [255, 255]]] :=
      Except.ok.inj ((congrArg Prod.fst hbatches).symm.trans hanswers)
    have hfirst := congrArg (List.map fun rs => rs.head?.bind Response.data?) hresponses
    rw [List.map_map] at hfirst
    exact List.map_inj_right (fun _ _ => Option.some.inj) |>.mp (hdata.symm.trans hfirst)
  subst hpieces
  have hlength : ∀ (k : Nat) (piece : List UInt8), [[3, 0], [255, 255]][k]? = some piece →
      piece.length = (window 4 2 k).2 := by
    intro k piece hk
    match k with
    | 0 | 1 => cases hk; rfl
  obtain ⟨hcount, hsecond⟩ := hplaced hlength
  exact ⟨rfl, _, _, _, rfl, hasked, rfl, hcount, (hsecond 1 _ rfl).trans (by decide)⟩

/-- A response that is too short makes a shorter list, in which the next scalar has moved up. -/
theorem read_shifted :
    ∃ values : List Int, ((threeScalars.read ⟨0⟩ 2).run
      (twoBuffers 2 ⟨[(0, .answer [.data [7]])], none, none⟩)).1 = .ok values ∧
        values.length = 1 :=
  ⟨[7], by decide +kernel, rfl⟩

end Mem

end TensorUnit.Host
