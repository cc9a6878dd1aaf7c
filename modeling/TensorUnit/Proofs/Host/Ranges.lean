import TensorUnit.Proofs.Architecture
import TensorUnit.Proofs.Host.Bounds
import TensorUnit.Proofs.Sim.Strides

namespace TensorUnit

open Sim (rowAt)
open Tcu (Instruction)

namespace Architecture

variable {arch : Architecture}

/-- An instruction that moves rows comes to rows only that its memories have. -/
def HasRows (arch : Architecture) : Instruction → Prop
  | .dataMove flag scratchpad address size =>
    ∀ i ≤ size.toNat, rowAt scratchpad i < arch.localDepth.toNat ∧
      rowAt address i < (arch.depth flag.remote).toNat
  | _ => True

theorem hasRows_copy {base size : UInt64} (hne : size ≠ 0)
    (hdram : base.toNat + size.toNat ≤ arch.dram1Depth.toNat)
    (hscratchpad : base.toNat + size.toNat ≤ arch.localDepth.toNat) :
    arch.HasRows (.move .dram1ToLocal base base (size - 1)) := by
  intro i hi
  have hpos : 1 ≤ size := UInt64.pos_iff_ne_zero.mpr hne
  have hrow : rowAt (.unit base) i = base.toNat + i := congrArg _ (Nat.mul_one i)
  have hlast : (size - 1).toNat + 1 = size.toNat := by
    rw [UInt64.toNat_sub_of_le _ _ hpos]
    exact Nat.sub_add_cancel (UInt64.le_iff_toNat_le.mp hpos)
  rw [hrow]
  change _ ∧ _ < arch.dram1Depth.toNat
  omega

end Architecture

namespace Host

open TensorUnit.Action (Triple)
open Remote Sim

namespace Driving

section Copies

variable {σ : Type} [Service σ] {h : Driving σ} {base size : UInt64}

/-- Both ranges are checked before anything is asked of the instance, and rows that pass are copied
by a program of a single move. -/
theorem perform_loadConsts (hne : size ≠ 0) :
    (perform (.loadConsts ⟨base⟩ size)).run h =
      match h.driver.arch.checkRows .dram1 base size,
          h.driver.arch.checkRows .scratchpad base size with
      | .ok (), .ok () =>
        (perform (.executeProgram [.move .dram1ToLocal base base (size - 1)])).run h
      | .error e, _ | .ok (), .error e => (.error (.spec e), h) := by
  change (loadConsts ⟨base⟩ size : Act σ Unit).run h = _
  rw [loadConsts, if_neg hne]
  change ((ofSpec (h.driver.arch.checkRows .dram1 base size) : Act σ Unit) >>= fun _ =>
    (ofSpec (h.driver.arch.checkRows .scratchpad base size) : Act σ Unit) >>= fun _ => _).run h = _
  cases h.driver.arch.checkRows .dram1 base size with
  | error e => rfl
  | ok _ =>
    cases h.driver.arch.checkRows .scratchpad base size with
    | error e => rfl
    | ok _ => rfl

theorem after_loadConsts_of_refused
    (hnot : ¬ (h.driver.arch.checkRows .dram1 base size = .ok () ∧
      h.driver.arch.checkRows .scratchpad base size = .ok ())) :
    h.after (.loadConsts ⟨base⟩ size) = h := by
  by_cases hne : size = 0
  · subst hne
    rfl
  · rw [after, perform_loadConsts hne]
    cases hdram : h.driver.arch.checkRows .dram1 base size with
    | error e => rfl
    | ok _ =>
      cases hscratchpad : h.driver.arch.checkRows .scratchpad base size with
      | error e => rfl
      | ok _ => exact absurd ⟨hdram, hscratchpad⟩ hnot

end Copies

theorem arch_after {σ : Type} [Service σ] (h : Driving σ) (op : Operation) :
    (h.after op).driver.arch = h.driver.arch := by
  by_cases hop : op = .close
  · subst hop
    obtain ⟨⟨_, hd⟩, _⟩ := (triple_close Triple.top fun _ _ => Triple.top).state
      (s := h) ⟨rfl, trivial⟩
    exact (congrArg Driver.arch hd).trans rfl
  · obtain ⟨⟨_, _, _, hd⟩, _⟩ := after_of_keeps (h := h) (P := fun _ => True) (A := fun _ => True)
      (fun _ _ _ _ => trivial) (fun _ hs _ => keepsOr_of_calls (fun _ => Triple.top) hs) trivial
      hop trivial
    exact (congrArg Driver.arch hd).trans rfl

end Driving

section Made

variable {σ : Type} [Service σ] {arch : Architecture} {config : Config}

structure Deployable (arch : Architecture) : Prop where
  valid : arch.validate = .ok ()
  sized : ∃ size, Driver.bufferSize arch = .ok size

theorem Deployable.depth_lt (h : Deployable arch) (bank : Bank) :
    (arch.depth bank.space).toNat < 2 ^ 63 := by
  obtain ⟨size, hsize⟩ := h.sized
  have hrows := Driver.rows_le_bufferSize hsize bank
  have hlt := size.toNat_lt
  have hbytes : 2 ≤ arch.rowBytes :=
    Nat.le_trans (two_le_scalarBytes _)
      (Nat.le_mul_of_pos_left _ (Architecture.arraySize_pos h.valid))
  have htwo := Nat.mul_le_mul_left (arch.depth bank.space).toNat hbytes
  omega

theorem triple_new_deployable :
    Triple (fun _ => True) (Driver.new arch config : Action σ DriverError Driver)
      (fun d _ => Deployable d.arch) fun _ => True := by
  have htrue : ∀ {P : σ → Prop} w, P w → True := fun _ _ => trivial
  apply Triple.bind (Q := fun _ _ => arch.validate = .ok () ∧ True)
    (triple_ofSpec (fun _ _ hr _ => ⟨hr, trivial⟩) htrue)
  intro _
  apply Triple.assume
  intro hv
  refine Triple.top.bind fun layout => Triple.top.bind fun probe => Triple.top.bind fun limit =>
    Triple.top.bind fun _ => Triple.top.bind fun _ => ?_
  apply Triple.bind (Q := fun size _ => Driver.bufferSize arch = .ok size ∧ True)
    (Triple.ofExcept (fun _ _ hr _ => ⟨hr, trivial⟩) htrue)
  intro size
  apply Triple.assume
  intro hs
  apply Triple.top.bind
  intro addresses
  apply triple_configureNew_any.relax
  rintro _ _ ⟨_, _, rfl⟩
  exact ⟨hv, size, hs⟩

/-- The states of a driver that was made on some instance, of whatever kind. Between two operations
the instance may become any other. -/
inductive Made : Driving σ → Prop where
  | new {config : Config} {arch : Architecture} {w₀ w : σ} {d : Driver}
      (new_ok : (Driver.new arch config).run w₀ = (.ok d, w)) : Made ⟨d, w⟩
  | perform {h : Driving σ} (op : Operation) (made : Made h) : Made (h.after op)
  | exchange {h : Driving σ} (remote : σ) (made : Made h) : Made { h with remote }

theorem Made.deployable {h : Driving σ} (hm : Made h) : Deployable h.driver.arch := by
  induction hm with
  | new new_ok => exact triple_new_deployable.ok trivial new_ok
  | @perform h op _ ih =>
    rw [h.arch_after op]
    exact ih
  | exchange remote _ ih => exact ih

end Made

/-- The check of a range is exact up to the limits. Where a memory is not as deep as a number can
say, a range passes exactly if it ends within the memory, whatever its start and its size, so that
all its rows are there; where it is, every range passes. A driver that is open copies rows exactly
if they are rows of both memories: then it has the unit execute one move, which comes to no others,
and otherwise it does nothing. -/
theorem rows_checked (arch : Architecture) (space : Space) (start rows : UInt64) :
    (arch.checkRows space start rows = .ok () ↔
      start.toNat + rows.toNat ≤ (arch.depth space).toNat ∨
        (arch.depth space).toNat = 2 ^ 64 - 1) ∧
    ((arch.depth space).toNat ≠ 2 ^ 64 - 1 → arch.checkRows space start rows = .ok () →
      ∀ i < rows.toNat, start.toNat + i < (arch.depth space).toNat) ∧
    ∀ (σ : Type) [Service σ] (h : Driving σ), Made h → h.driver.arch = arch →
      let copy := Instruction.move .dram1ToLocal start start (rows - 1)
      (rows ≠ 0 → start.toNat + rows.toNat ≤ arch.dram1Depth.toNat →
        start.toNat + rows.toNat ≤ arch.localDepth.toNat →
          (Driving.perform (.loadConsts ⟨start⟩ rows)).run h =
              (Driving.perform (.executeProgram [copy])).run h ∧
            arch.HasRows copy) ∧
      (h.driver.closed = true ∨ rows = 0 ∨
        arch.dram1Depth.toNat < start.toNat + rows.toNat ∨
        arch.localDepth.toNat < start.toNat + rows.toNat →
          h.after (.loadConsts ⟨start⟩ rows) = h) := by
  refine ⟨Architecture.checkRows_eq_ok_iff, fun hdepth hok i hi => ?_, ?_⟩
  · have hend := Architecture.checkRows_eq_ok_iff.mp hok
    omega
  rintro σ _ h hm rfl
  refine ⟨fun hne hdram hscratchpad => ⟨?_, ?_⟩, fun hnot => ?_⟩
  · rw [Driving.perform_loadConsts hne, Architecture.checkRows_eq_ok_iff.mpr (.inl hdram),
      Architecture.checkRows_eq_ok_iff.mpr (.inl hscratchpad)]
  · exact Architecture.hasRows_copy hne hdram hscratchpad
  · have hmax : h.driver.arch.dram1Depth.toNat < 2 ^ 63 := hm.deployable.depth_lt .dram1
    rcases hnot with hclosed | rfl | hbeyond
    · exact Driving.after_closed hclosed _
    · rfl
    · apply Driving.after_loadConsts_of_refused
      rw [Architecture.checkRows_eq_ok_iff, Architecture.checkRows_eq_ok_iff]
      change ¬ ((_ ≤ h.driver.arch.dram1Depth.toNat ∨ h.driver.arch.dram1Depth.toNat = _) ∧
        (_ ≤ h.driver.arch.localDepth.toNat ∨ h.driver.arch.localDepth.toNat = _))
      omega

section Small

theorem made_smallStart {h : Driving (Switch Simulator)} (hs : smallStart = some h) : Made h := by
  obtain ⟨sim, -, hnew⟩ := exists_of_startWith hs
  exact .new hnew

/-- The single row of DRAM1 is copied, and two rows are not. -/
theorem rows_checked_smallStart :
    ∃ h : Driving (Switch Simulator), Made h ∧ h.driver.arch = smallArch ∧
      h.driver.closed = false ∧
      (Driving.perform (.loadConsts ⟨0⟩ 1)).run h =
        (Driving.perform (.executeProgram [.move .dram1ToLocal 0 0 0])).run h ∧
      smallArch.HasRows (.move .dram1ToLocal 0 0 0) ∧ h.after (.loadConsts ⟨0⟩ 2) = h ∧
      smallArch.checkRows .scratchpad 15 1 = .ok () ∧
      15 + 0 < (smallArch.depth .scratchpad).toNat := by
  obtain ⟨h, hs⟩ := exists_smallStart
  have hfacts : ∀ h ∈ smallStart, h.driver.closed = false ∧ h.driver.arch = smallArch := by
    decide +kernel
  obtain ⟨hopen, harch⟩ := hfacts h hs
  have hmade := made_smallStart hs
  obtain ⟨hcopied, -⟩ := (rows_checked smallArch .dram1 0 1).2.2 _ h hmade harch
  obtain ⟨-, hrefused⟩ := (rows_checked smallArch .dram1 0 2).2.2 _ h hmade harch
  obtain ⟨hrun, hrows⟩ := hcopied (by decide) (by decide) (by decide)
  have hchecked : smallArch.checkRows .scratchpad 15 1 = .ok () := rfl
  refine ⟨h, hmade, harch, hopen, hrun, hrows, ?_, hchecked, ?_⟩
  · exact hrefused (.inr (.inr (.inl (by decide))))
  · exact (rows_checked smallArch .scratchpad 15 1).2.1 (by decide) hchecked 0 (by decide)

/-- The row behind the last one of a scratchpad that is as deep as a number can say passes the
check. -/
theorem row_beyond_checked :
    let arch := { smallArch with localDepth := 0xffffffffffffffff }
    arch.validate = .ok () ∧ arch.checkRows .scratchpad 0xffffffffffffffff 1 = .ok () ∧
      (arch.depth .scratchpad).toNat < (0xffffffffffffffff : UInt64).toNat + (1 : UInt64).toNat :=
  ⟨rfl, rfl, by decide⟩

end Small

end Host

end TensorUnit
