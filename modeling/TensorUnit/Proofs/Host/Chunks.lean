import TensorUnit.Proofs.Host.History
import TensorUnit.Proofs.Sim.Writes

namespace TensorUnit.Host

open Remote Sim

section Transfer

variable (w : Switch Simulator) (buffer : String) (offset : UInt64) (data : List UInt8)
  (size : Nat)

def chunkAt (k : Nat) : List UInt8 :=
  (data.drop (k * size)).take size

def chunkCount : Nat :=
  (data.length + size - 1) / size

def chunkCall (k : Nat) : Batch :=
  [.bufferWrite buffer (offset + .ofNat (k * size)) (chunkAt data size k)]

/-- Nothing is planned to make the call for a chunk fail, when the calls for those before it have
been made. -/
def Spares (k : Nat) : Prop :=
  w.plan.calls.lookup (w.call + k) = none ∧
    w.remote.config.failBufferWriteAt ≠ some (w.remote.stats.bufferWrites + k)

/-- What comes of the call for a chunk, when those before it are written. -/
def chunkOutcome (k : Nat) : Except RemoteError Unit :=
  match w.plan.calls.lookup (w.call + k) with
  | some (.fail error) => .error error
  | _ =>
    if w.remote.config.failBufferWriteAt = some (w.remote.stats.bufferWrites + k) then
      .error (.transport (.injectedWrite (w.remote.stats.bufferWrites + k)))
    else
      w.remote.memory.checkWindow buffer (offset + .ofNat (k * size))
        (.ofNat (chunkAt data size k).length)

/-- The instance when the calls for the first `calls` chunks are made and the first `k` of them are
written. -/
structure Sent (calls k : Nat) (t : Switch Simulator) : Prop where
  plan : t.plan = w.plan
  call : t.call = w.call + calls
  log : t.log = ((List.range calls).map (chunkCall buffer offset data size)).reverse ++ w.log
  up : t.remote.up = w.remote.up
  config : t.remote.config = w.remote.config
  machine : t.remote.machine = w.remote.machine.wrote buffer offset (data.take (k * size))

/-- How a transfer ends: all chunks are written, or it stops at the first one whose call fails. -/
inductive Transferred : Except DriverError Nat × Switch Simulator → Prop where
  | written {t : Switch Simulator}
      (all : ∀ k < chunkCount data size, chunkOutcome w buffer offset data size k = .ok ())
      (sent : Sent w buffer offset data size (chunkCount data size) (chunkCount data size) t) :
      Transferred (.ok (chunkCount data size), t)
  | stopped {k : Nat} {source : RemoteError} {t : Switch Simulator}
      (before : ∀ i < k, chunkOutcome w buffer offset data size i = .ok ())
      (lt : k < chunkCount data size)
      (fails : chunkOutcome w buffer offset data size k = .error source)
      (sent : Sent w buffer offset data size (k + 1) k t) :
      Transferred (.error (.transfer buffer k (offset + .ofNat (k * size)) source), t)

end Transfer

section Lengths

variable {data : List UInt8} {size : Nat}

theorem length_chunkAt (data : List UInt8) (size k : Nat) :
    (chunkAt data size k).length = min size (data.length - k * size) := by
  rw [chunkAt, List.length_take, List.length_drop]

theorem lt_chunkCount_iff (hs : 0 < size) {k : Nat} :
    k < chunkCount data size ↔ k * size < data.length :=
  lt_ceil_iff hs

theorem take_chunkCount (hs : 0 < size) : data.take (chunkCount data size * size) = data :=
  List.take_of_length_le (Nat.not_lt.mp fun h => Nat.lt_irrefl _ ((lt_chunkCount_iff hs).mpr h))

theorem take_append_chunkAt (data : List UInt8) (size k : Nat) :
    data.take (k * size) ++ chunkAt data size k = data.take ((k + 1) * size) := by
  rw [chunkAt, Nat.succ_mul, List.take_add]

end Lengths

/-- An instance that is up and takes chunks of a size for a buffer. Its unit stands still, and some
of its calls may be made to fail. -/
structure Accepts (buffer : String) (size : Nat) (w : Switch Simulator) : Prop where
  plan : OnlyFails w.plan
  up : w.remote.up = true
  still : w.remote.Still
  allocated : (w.remote.memory.region? buffer).isSome
  small : (w.remote.memory.bytes buffer).length < 2 ^ 64
  pos : 0 < size
  payload : size ≤ w.remote.config.maxPayload
  word : size < 2 ^ 64

section Steps

variable {w t : Switch Simulator} {buffer : String} {offset : UInt64} {data : List UInt8}
  {size k : Nat}

theorem chunkOutcome_eq_ok_iff (hplan : OnlyFails w.plan) :
    chunkOutcome w buffer offset data size k = .ok () ↔
      Spares w k ∧ w.remote.memory.checkWindow buffer (offset + .ofNat (k * size))
        (.ofNat (chunkAt data size k).length) = .ok () := by
  unfold chunkOutcome Spares
  cases hc : w.plan.calls.lookup (w.call + k) with
  | none =>
    simp only [true_and]
    split
    · exact ⟨fun h => (nomatch h), fun h => absurd ‹_› h.1⟩
    · exact ⟨fun h => ⟨‹_›, h⟩, And.right⟩
  | some interference =>
    obtain ⟨error, rfl⟩ := hplan.fails hc
    exact ⟨fun h => (nomatch h), fun h => (nomatch h.1.1)⟩

variable (hw : Accepts buffer size w)
include hw

theorem end_le (hposition : offset.toNat + k * size < 2 ^ 64)
    (hok : chunkOutcome w buffer offset data size k = .ok ()) (hk : k * size < data.length) :
    offset.toNat + min ((k + 1) * size) data.length ≤
      (w.remote.memory.bytes buffer).length := by
  have hwindow := ((chunkOutcome_eq_ok_iff hw.plan).mp hok).2
  have hfit := (Memory.checkWindow_eq_ok_iff.mp hwindow).2
  have hword := hw.word
  rw [toNat_position hposition, length_chunkAt,
    UInt64.toNat_ofNat_of_lt' (by change _ < 2 ^ 64; omega)] at hfit
  rw [Nat.succ_mul]
  omega

theorem position_lt (hprev : ∀ i < k, chunkOutcome w buffer offset data size i = .ok ())
    (hk : k * size < data.length) : offset.toNat + k * size < 2 ^ 64 := by
  induction k with
  | zero =>
    rw [Nat.zero_mul]
    exact offset.toNat_lt
  | succ k ih =>
    have hlt : k * size < data.length := by
      rw [Nat.succ_mul] at hk
      omega
    have hend := end_le hw (ih (fun i hi => hprev i (by omega)) hlt) (hprev k (by omega)) hlt
    have hsmall := hw.small
    omega

section Call

variable (h : Sent w buffer offset data size k k t)
include h

theorem Sent.checkWrite
    (hwrites : t.remote.stats.bufferWrites = w.remote.stats.bufferWrites + k) :
    t.remote.checkWrite buffer (offset + .ofNat (k * size)) (chunkAt data size k) =
      if w.remote.config.failBufferWriteAt = some (w.remote.stats.bufferWrites + k) then
        .error (.transport (.injectedWrite (w.remote.stats.bufferWrites + k)))
      else
        w.remote.memory.checkWindow buffer (offset + .ofNat (k * size))
          (.ofNat (chunkAt data size k).length) := by
  have hlength : (chunkAt data size k).length ≤ w.remote.config.maxPayload := by
    rw [length_chunkAt]
    exact Nat.le_trans (Nat.min_le_left ..) hw.payload
  rw [Simulator.checkWrite, h.config, hwrites, if_neg (Nat.not_lt.mpr hlength), Simulator.memory,
    h.machine, Machine.memory_wrote, Memory.checkWindow_write]
  rfl

omit hw in
theorem Sent.log_succ : chunkCall buffer offset data size k :: t.log =
    ((List.range (k + 1)).map (chunkCall buffer offset data size)).reverse ++ w.log := by
  rw [h.log, List.range_succ, List.map_append, List.reverse_append]
  rfl

omit hw in
theorem Sent.still (hstill : w.remote.Still) : t.remote.Still := by
  rw [Simulator.Still, h.config, h.machine]
  exact hstill

theorem Sent.call_ok (hwrites : t.remote.stats.bufferWrites = w.remote.stats.bufferWrites + k)
    (hlt : k * size < data.length) (hposition : offset.toNat + k * size < 2 ^ 64)
    (hok : chunkOutcome w buffer offset data size k = .ok ()) :
    ∃ u, (execute (chunkCall buffer offset data size k) : Action (Switch Simulator) _ _).run t =
        (.ok [], u) ∧
      u.remote.stats.bufferWrites = w.remote.stats.bufferWrites + (k + 1) ∧
      Sent w buffer offset data size (k + 1) (k + 1) u := by
  obtain ⟨⟨hcall, hplanned⟩, hwindow⟩ := (chunkOutcome_eq_ok_iff hw.plan).mp hok
  have hlookup : t.plan.calls.lookup t.call = none := by
    rw [h.plan, h.call]
    exact hcall
  have hcheck := h.checkWrite hw hwrites
  rw [if_neg hplanned, hwindow] at hcheck
  have hrun : (Switch.send (chunkCall buffer offset data size k)).run t = _ :=
    On.send_run_none hlookup
  rw [chunkCall, Simulator.execute_write_ok (h.up.trans hw.up) (h.still hw.still) hcheck] at hrun
  refine ⟨_, hrun, congrArg (· + 1) hwrites, h.plan, congrArg (· + 1) h.call, h.log_succ, h.up,
    h.config, ?_⟩
  have htake : (data.take (k * size)).length = k * size := by
    rw [List.length_take]
    omega
  have hmore : (offset + .ofNat (k * size)).toNat =
      offset.toNat + (data.take (k * size)).length := by
    rw [toNat_position hposition, htake]
  change t.remote.machine.wrote buffer _ _ = _
  rw [h.machine, Machine.wrote, Machine.memory_wrote, Memory.write_append hmore,
    take_append_chunkAt]
  rfl

theorem Sent.call_error {source : RemoteError}
    (hwrites : t.remote.stats.bufferWrites = w.remote.stats.bufferWrites + k)
    (hfail : chunkOutcome w buffer offset data size k = .error source) :
    ∃ u, (execute (chunkCall buffer offset data size k) : Action (Switch Simulator) _ _).run t =
        (.error source, u) ∧ Sent w buffer offset data size (k + 1) k u := by
  have hlookup : t.plan.calls.lookup t.call = w.plan.calls.lookup (w.call + k) := by
    rw [h.plan, h.call]
  unfold chunkOutcome at hfail
  cases hc : w.plan.calls.lookup (w.call + k) with
  | some interference =>
    obtain ⟨error, rfl⟩ := hw.plan.fails hc
    rw [hc] at hfail
    cases hfail
    exact ⟨_, On.send_run_fail (hlookup.trans hc), h.plan, congrArg (· + 1) h.call, h.log_succ,
      h.up, h.config, h.machine⟩
  | none =>
    rw [hc] at hfail
    have hcheck := (h.checkWrite hw hwrites).trans hfail
    have hrun : (Switch.send (chunkCall buffer offset data size k)).run t = _ :=
      On.send_run_none (hlookup.trans hc)
    rw [chunkCall, Simulator.execute_write_error (h.up.trans hw.up) (h.still hw.still) hcheck]
      at hrun
    exact ⟨_, hrun, h.plan, congrArg (· + 1) h.call, h.log_succ, h.up, h.config, h.machine⟩

end Call

theorem Sent.chunks_run (index count : Nat) (hc : index + count = chunkCount data size)
    (h : Sent w buffer offset data size index index t)
    (hwrites : t.remote.stats.bufferWrites = w.remote.stats.bufferWrites + index)
    (hprev : ∀ i < index, chunkOutcome w buffer offset data size i = .ok ()) :
    Transferred w buffer offset data size ((writeChunks buffer offset size index
      ((List.range' index count).map (chunkAt data size))).run t) := by
  induction count generalizing index t with
  | zero =>
    obtain rfl : index = chunkCount data size := hc
    exact .written hprev h
  | succ count ih =>
    have hlt : index < chunkCount data size := by omega
    have hmore := (lt_chunkCount_iff hw.pos).mp hlt
    rw [List.range'_succ, List.map_cons, writeChunks, Action.mapError_bind_run, ← chunkCall]
    cases ho : chunkOutcome w buffer offset data size index with
    | error source =>
      obtain ⟨u, hrun, hsent⟩ := h.call_error hw hwrites ho
      rw [hrun]
      exact .stopped hprev hlt ho hsent
    | ok _ =>
      obtain ⟨u, hrun, hnext, hsent⟩ := h.call_ok hw hwrites hmore (position_lt hw hprev hmore) ho
      rw [hrun]
      refine ih (index + 1) (by omega) hsent hnext fun i hi => ?_
      rcases Nat.lt_succ_iff_lt_or_eq.mp hi with hi | rfl
      · exact hprev i hi
      · exact ho

omit hw in
theorem sent_zero (w : Switch Simulator) (buffer : String) (offset : UInt64) (data : List UInt8)
    (size : Nat) : Sent w buffer offset data size 0 0 w := by
  refine ⟨rfl, rfl, rfl, rfl, rfl, ?_⟩
  rw [Nat.zero_mul, List.take_zero, Machine.wrote, Memory.write_nil]

/-- A transfer writes all of its chunks, or those before the first one whose call fails. -/
theorem transferred (offset : UInt64) (data : List UInt8) :
    Transferred w buffer offset data size ((writeChunked buffer offset data size).run w) := by
  have hrun : (writeChunked buffer offset data size).run w =
      (writeChunks buffer offset size 0 ((List.range' 0 (chunkCount data size)).map
        (chunkAt data size))).run w := by
    have hup : isUp w = true := hw.up
    have hsize : 0 < size ∧ size ≤ maxPayload w := ⟨hw.pos, hw.payload⟩
    rw [writeChunked, requireUp]
    simp only [Action.bind_run, Action.view_run, Action.require_run, if_pos hup, if_pos hsize]
    rw [Bytes.chunks, Bytes.pieces_eq, List.range_eq_range']
    rfl
  rw [hrun]
  exact (sent_zero w buffer offset data size).chunks_run hw 0 _ (Nat.zero_add _) rfl
    fun i hi => absurd hi (Nat.not_lt_zero i)

theorem windows_iff (offset : UInt64) (data : List UInt8)
    (hprev : ∀ k < chunkCount data size, Spares w k) :
    (∀ k < chunkCount data size, chunkOutcome w buffer offset data size k = .ok ()) ↔
      data = [] ∨ offset.toNat + data.length ≤ (w.remote.memory.bytes buffer).length := by
  have hpos := hw.pos
  constructor
  · intro hall
    by_cases hd : data = []
    · exact .inl hd
    right
    -- the last chunk ends where the data do
    have hlength := List.length_pos_iff.mpr hd
    obtain ⟨last, hlast⟩ : ∃ last, chunkCount data size = last + 1 :=
      Nat.exists_eq_succ_of_ne_zero (Nat.ne_of_gt ((lt_chunkCount_iff hpos).mpr (by omega)))
    have hmore := (lt_chunkCount_iff hpos).mp (by omega : last < chunkCount data size)
    have hend : data.length ≤ (last + 1) * size :=
      Nat.not_lt.mp fun h => by
        have := (lt_chunkCount_iff hpos).mpr h
        omega
    have hfit := end_le hw (position_lt hw (fun i hi => hall i (by omega)) hmore)
      (hall last (by omega)) hmore
    omega
  · intro hfit k hk
    have hsmall := hw.small
    have hmore := (lt_chunkCount_iff hpos).mp hk
    have hle : offset.toNat + data.length ≤ (w.remote.memory.bytes buffer).length := by
      refine hfit.resolve_left fun hd => ?_
      rw [hd, List.length_nil] at hmore
      omega
    refine (chunkOutcome_eq_ok_iff hw.plan).mpr ⟨hprev k hk, Memory.checkWindow_eq_ok_iff.mpr
      ⟨hw.allocated, ?_⟩⟩
    rw [toNat_position (by omega), length_chunkAt,
      UInt64.toNat_ofNat_of_lt' (by change _ < 2 ^ 64; omega)]
    omega

theorem all_ok_iff (offset : UInt64) (data : List UInt8) :
    (∀ k < chunkCount data size, chunkOutcome w buffer offset data size k = .ok ()) ↔
      (∀ k < chunkCount data size, Spares w k) ∧
        (data = [] ∨ offset.toNat + data.length ≤ (w.remote.memory.bytes buffer).length) := by
  constructor
  · intro hall
    have hspares := fun k hk => ((chunkOutcome_eq_ok_iff hw.plan).mp (hall k hk)).1
    exact ⟨hspares, (windows_iff hw offset data hspares).mp hall⟩
  · exact fun ⟨hspares, hfit⟩ => (windows_iff hw offset data hspares).mpr hfit

theorem fits_before (hprev : ∀ i < k, chunkOutcome w buffer offset data size i = .ok ())
    (hk : k * size < data.length) :
    data.take (k * size) = [] ∨
      offset.toNat + (data.take (k * size)).length ≤ (w.remote.memory.bytes buffer).length := by
  cases k with
  | zero => exact .inl (by rw [Nat.zero_mul, List.take_zero])
  | succ k =>
    have hlt : k * size < data.length := by
      rw [Nat.succ_mul] at hk
      omega
    have hend := end_le hw (position_lt hw (fun i hi => hprev i (by omega)) hlt)
      (hprev k (by omega)) hlt
    rw [List.length_take]
    exact .inr hend

/-- A transfer into a buffer puts all of the data there, or it reports the first chunk that fails.
Then that is the last one to be sent, and the data before it are in the buffer. All of the data are
written just when no call is made to fail and they lie within the buffer. -/
theorem writeChunked_ends (offset : UInt64) (data : List UInt8) :
    ((∃ t, (writeChunked buffer offset data size).run w = (.ok (chunkCount data size), t) ∧
        Overwritten w.remote.machine buffer offset.toNat data t.remote.machine) ∨
      ∃ k position source t,
        (writeChunked buffer offset data size).run w =
          (.error (.transfer buffer k position source), t) ∧
        position.toNat = offset.toNat + k * size ∧
        chunkOutcome w buffer offset data size k = .error source ∧
        (∀ i < k, chunkOutcome w buffer offset data size i = .ok ()) ∧
        t.log = ((List.range (k + 1)).map (chunkCall buffer offset data size)).reverse ++ w.log ∧
        Overwritten w.remote.machine buffer offset.toNat (data.take (k * size))
          t.remote.machine) ∧
    ((∃ n t, (writeChunked buffer offset data size).run w = (.ok n, t)) ↔
      (∀ k < chunkCount data size, Spares w k) ∧
        (data = [] ∨ offset.toNat + data.length ≤ (w.remote.memory.bytes buffer).length)) := by
  rw [← all_ok_iff hw]
  have hend := transferred hw offset data
  cases hr : (writeChunked buffer offset data size).run w with
  | mk r t =>
    rw [hr] at hend
    cases hend with
    | written all sent =>
      refine ⟨.inl ⟨t, rfl, ?_⟩, fun _ => all, fun _ => ⟨_, t, rfl⟩⟩
      rw [sent.machine, take_chunkCount hw.pos]
      exact overwritten_wrote ((all_ok_iff hw offset data).mp all).2
    | @stopped k source _ before lt fails sent =>
      have hmore := (lt_chunkCount_iff hw.pos).mp lt
      refine ⟨.inr ⟨k, _, source, t, rfl, toNat_position (position_lt hw before hmore), fails,
        before, sent.log, ?_⟩, ⟨fun ⟨_, _, h⟩ => (nomatch h), fun h => ?_⟩⟩
      · rw [sent.machine]
        exact overwritten_wrote (fits_before hw before hmore)
      · cases fails.symm.trans (h k lt)

end Steps

/-- The small unit, with buffers of six and of four bytes, behind a switch. -/
def twoBuffers (limit : Nat) (plan : FaultPlan) : Switch Simulator :=
  .ofPlan
    { layout := .ofDepths smallArch
      config := { Sim.Config.default with maxPayload := limit }
      up := true
      machine := ⟨.fresh smallArch,
        ⟨[("a", ⟨0, zeroBytes 6⟩), ("b", ⟨65536, zeroBytes 4⟩)], 131072⟩⟩
      channels := []
      stats := ⟨0, 0, 0, 0, 0, 0⟩
      overflowed := false } plan

/-- A transfer of five bytes that runs past the end of the buffer with its third chunk. -/
theorem writeChunked_ends_overrun :
    Accepts "a" 2 (twoBuffers 2 ⟨[], none, none⟩) ∧
      ∃ k position source t,
        (writeChunked "a" 2 [1, 2, 3, 4, 5] 2).run (twoBuffers 2 ⟨[], none, none⟩) =
          (.error (.transfer "a" k position source), t) ∧
        k = 2 ∧ position = 6 ∧ t.log.length = 3 ∧
        t.remote.memory.bytes "a" = [0, 0, 1, 2, 3, 4] := by
  have haccepts : Accepts "a" 2 (twoBuffers 2 ⟨[], none, none⟩) :=
    ⟨nofun, rfl, .inr rfl, rfl, by decide, by decide, by decide, by decide⟩
  refine ⟨haccepts, ?_⟩
  obtain ⟨hend, hok⟩ := writeChunked_ends haccepts 2 [1, 2, 3, 4, 5]
  rcases hend with ⟨t, hrun, _⟩ | ⟨k, position, source, t, hrun, hp, hfail, hbefore, hlog, hover⟩
  · exact absurd (hok.mp ⟨_, t, hrun⟩).2 (by decide)
  have hall : ∀ i < 2, chunkOutcome (twoBuffers 2 ⟨[], none, none⟩) "a" 2 [1, 2, 3, 4, 5] 2 i =
      .ok () := by decide +kernel
  have hthird : chunkOutcome (twoBuffers 2 ⟨[], none, none⟩) "a" 2 [1, 2, 3, 4, 5] 2 2 ≠
      .ok () := by decide +kernel
  obtain rfl : k = 2 := by
    rcases Nat.lt_trichotomy k 2 with hk | hk | hk
    · exact nomatch (hall k hk).symm.trans hfail
    · exact hk
    · exact absurd (hbefore 2 hk) hthird
  refine ⟨2, position, source, t, hrun, rfl, UInt64.toNat_inj.mp hp, ?_, ?_⟩
  · rw [hlog]
    rfl
  · exact hover.bytes

end TensorUnit.Host
