import TensorUnit.Proofs.Sim.Order

namespace TensorUnit.Sim.Machine

open TensorUnit.Action (Alike)
open Remote (DeviceFault)
open Tcu (Instruction MoveFlag StridedAddress)

def paced (m : Machine) (queue : List Instruction) (executed : Nat) : Machine :=
  { m with device := { m.device with queue, executed } }

section Paced

variable {queue : List Instruction} {executed : Nat}

theorem arch_paced (m : Machine) : (m.paced queue executed).device.arch = m.device.arch := rfl

theorem localRow_paced (m : Machine) (row : UInt64) :
    (m.paced queue executed).device.localRow row = m.device.localRow row := rfl

theorem rowAddress?_paced (m : Machine) (space : Space) (row : UInt64) :
    rowAddress? (m.paced queue executed).device space row = rowAddress? m.device space row := by
  have hregister : ∀ r, (m.paced queue executed).device.register r = m.device.register r :=
    fun _ => rfl
  rw [rowAddress?, rowAddress?, hregister, arch_paced]

theorem paced_of_empty {m : Machine} (hq : m.device.queue = []) :
    m.paced [] m.device.executed = m := by
  obtain ⟨⟨_, _, _, _, _, _⟩, _⟩ := m
  obtain rfl := hq
  rfl

/-- The same machine, but for its queue and its count. -/
def Paced (queue : List Instruction) (executed : Nat) (m t : Machine) : Prop :=
  t = m.paced queue executed

theorem alike_setRow {row : UInt64} {values : List Int} :
    Alike (Paced queue executed) (setLocalRow row values) ∧
      Alike (Paced queue executed) (setAccumulatorRow row values) := by
  constructor <;>
  · rintro ⟨⟨_, _, _, _, _, _⟩, _⟩ _ rfl
    exact ⟨rfl, rfl⟩

theorem alike_loadRow {address : UInt64} : Alike (Paced queue executed) (loadRow address) := by
  refine Alike.view (fun s t h => ?_) fun bytes => ?_
  · obtain rfl := h
    rfl
  · cases bytes with
    | none => exact Alike.fail
    | some bytes => exact Alike.pure

theorem alike_storeRow {address : UInt64} {bytes : List UInt8} :
    Alike (Paced queue executed) (storeRow address bytes) := by
  refine Alike.view (fun s t h => ?_) fun mapped => Alike.require.bind fun _ s t h => ?_
  · obtain rfl := h
    rfl
  · obtain rfl := h
    exact ⟨rfl, rfl⟩

theorem alike_moveRow {flag : MoveFlag} {localRow row : UInt64} :
    Alike (Paced queue executed) (moveRow flag localRow row) := by
  have hdram : Alike (Paced queue executed) (moveDramRow flag localRow row) := by
    refine Alike.view (fun s t h => ?_) fun d => Alike.require.bind fun _ =>
      alike_address.bind fun address => ?_
    · obtain rfl := h
      rw [rowAddress?_paced, arch_paced, localRow_paced]
    · split
      · exact alike_loadRow.bind fun _ => alike_setRow.1
      · split
        · exact Alike.fail
        · exact alike_storeRow
  have haccumulator : Alike (Paced queue executed) (moveAccumulatorRow flag localRow row) := by
    refine Alike.view (fun s t h => ?_) fun d => Alike.require.bind fun _ => ?_
    · obtain rfl := h
      rfl
    · split
      · exact alike_setRow.1
      · exact alike_setRow.2
      · exact alike_setRow.2
  refine Alike.view (fun s t h => ?_) fun d => Alike.require.bind fun _ => ?_
  · obtain rfl := h
    rfl
  · split
    · exact hdram
    · exact hdram
    · exact haccumulator
    · exact haccumulator

theorem alike_execute (instr : Instruction) : Alike (Paced queue executed) (execute instr) := by
  cases instr with
  | noOp => exact Alike.pure
  | configure register value =>
    rintro m t rfl
    exact ⟨rfl, rfl⟩
  | dataMove flag scratchpad address size => exact alike_moveRows fun _ _ => alike_moveRow
  | matMul | loadWeights => exact Alike.fail

theorem alike_program (program : List Instruction) :
    Alike (Paced queue executed) (executeAll program) :=
  alike_executeAll fun instr _ => alike_execute instr

theorem run_paced {α : Type} {a : Step α} (h : Alike (Paced queue executed) a) (m : Machine) :
    a.run (m.paced queue executed) = ((a.run m).1, (a.run m).2.paced queue executed) := by
  obtain ⟨hresult, hstate⟩ := h m _ rfl
  exact Prod.ext hresult.symm hstate

end Paced

/-- A program is executed up to an instruction that is a fault. What that instruction has done
before it failed stays done. -/
inductive Breaks (program : List Instruction) (m : Machine) (n : Nat) (fault : DeviceFault)
    (t : Machine) : Prop where
  | at (before after : List Instruction) (instr : Instruction) (u : Machine) :
    program = before ++ instr :: after → before.length = n →
    (executeAll before).run m = (.ok (), u) → (execute instr).run u = (.error fault, t) →
    Breaks program m n fault t

theorem Breaks.cons {instr : Instruction} {program : List Instruction} {m u t : Machine} {n : Nat}
    {fault : DeviceFault} (hr : (execute instr).run m = (.ok (), u))
    (h : Breaks program u n fault t) : Breaks (instr :: program) m (n + 1) fault t := by
  obtain ⟨before, after, last, v, rfl, rfl, hbefore, hlast⟩ := h
  refine .at (instr :: before) after last v rfl rfl ?_ hlast
  rw [executeAll, Action.bind_run, hr]
  exact hbefore

theorem Breaks.of_paced {program queue : List Instruction} {m t : Machine} {n executed : Nat}
    {fault : DeviceFault} (h : Breaks program (m.paced queue executed) n fault t) :
    ∃ u, Breaks program m n fault u ∧ t = u.paced queue executed := by
  obtain ⟨before, after, instr, v, hp, hn, hbefore, hlast⟩ := h
  rw [run_paced (alike_program before)] at hbefore
  obtain ⟨hok, rfl⟩ := Prod.mk.inj hbefore
  rw [run_paced (alike_execute instr)] at hlast
  obtain ⟨hfault, rfl⟩ := Prod.mk.inj hlast
  exact ⟨_, .at before after instr _ hp hn (Prod.ext hok rfl) (Prod.ext hfault rfl), rfl⟩

theorem executeNext_cons_run {m : Machine} {instr : Instruction} {queue : List Instruction}
    (hq : m.device.queue = instr :: queue) :
    executeNext.run m =
      match (execute instr).run m with
      | (.ok _, t) => (.ok (), t.paced queue (m.device.executed + 1))
      | (.error fault, t) => (.error fault, t.paced [] m.device.executed) := by
  have hrun : (execute instr).run (m.withQueue queue) =
      (((execute instr).run m).1, ((execute instr).run m).2.paced queue m.device.executed) :=
    run_paced (alike_execute instr) m
  rw [executeNext_run, hq]
  simp only
  rw [hrun]
  rcases (execute instr).run m with ⟨_ | _, _⟩ <;> rfl

/-- Many steps execute the head of the queue, as far as there is no fault. -/
theorem stepMany_run (m : Machine) (count : Nat) :
    (∃ t, (executeAll (m.device.queue.take count)).run m = (.ok (), t) ∧
      (stepMany count).run m = (.ok (), t.paced (m.device.queue.drop count)
        (m.device.executed + min count m.device.pending))) ∨
    ∃ n fault t, n < count ∧ Breaks m.device.queue m n fault t ∧
      (stepMany count).run m = (.error fault, t.paced [] (m.device.executed + n)) := by
  induction count generalizing m with
  | zero =>
    obtain ⟨⟨_, _, _, _, _, _⟩, _⟩ := m
    exact .inl ⟨_, rfl, by rw [Nat.zero_min]; rfl⟩
  | succ count ih =>
    cases hq : m.device.queue with
    | nil =>
      refine .inl ⟨m, rfl, ?_⟩
      rw [stepMany_of_empty hq, Device.pending, hq, List.drop_nil, List.length_nil, Nat.min_zero,
        Nat.add_zero, paced_of_empty hq]
    | cons instr queue =>
      rw [stepMany, Action.bind_run, executeNext_cons_run hq]
      rcases hr : (execute instr).run m with ⟨fault | _, u⟩
      · exact .inr ⟨0, fault, u, Nat.succ_pos _, .at [] queue instr m rfl rfl rfl hr, rfl⟩
      · rcases ih (u.paced queue (m.device.executed + 1)) with
          ⟨t, hall, hrun⟩ | ⟨n, fault, t, hn, hbreaks, hrun⟩
        · rw [run_paced (alike_program _)] at hall
          obtain ⟨hok, rfl⟩ := Prod.mk.inj hall
          refine .inl ⟨((executeAll (queue.take count)).run u).2, ?_, ?_⟩
          · rw [List.take_succ_cons, executeAll, Action.bind_run, hr]
            exact Prod.ext hok rfl
          · have hmin : m.device.executed + min (count + 1) m.device.pending =
                m.device.executed + 1 + min count queue.length := by
              rw [Device.pending, hq, List.length_cons]
              omega
            rw [List.drop_succ_cons, hmin]
            exact hrun
        · obtain ⟨v, hv, rfl⟩ := hbreaks.of_paced
          refine .inr ⟨n + 1, fault, v, Nat.succ_lt_succ hn, hv.cons hr, ?_⟩
          rw [Nat.add_comm n 1, ← Nat.add_assoc]
          exact hrun

theorem stepMany_add (first rest : Nat) :
    stepMany (first + rest) = stepMany first >>= fun _ => stepMany rest := by
  induction first with
  | zero => rw [Nat.zero_add]; rfl
  | succ first ih => rw [Nat.add_right_comm, stepMany, stepMany, ih, bind_assoc]

theorem pending_stepMany {m t : Machine} {count : Nat}
    (h : (stepMany count).run m = (.ok (), t)) :
    t.device.pending = m.device.pending - count := by
  rcases stepMany_run m count with ⟨u, _, hrun⟩ | ⟨_, _, _, _, _, hrun⟩
  · cases h.symm.trans hrun
    exact List.length_drop
  · cases h.symm.trans hrun

theorem step_run (m : Machine) (limit : Option Nat) :
    (step limit).run m = match (stepMany (m.stepCount limit)).run m with
      | (.ok _, t) => (.ok (m.stepCount limit), t)
      | (.error fault, t) => (.error fault, t) := by
  rw [step, Action.bind_run, Action.view_run]
  simp only
  rw [Action.bind_run]
  rcases (stepMany (m.stepCount limit)).run m with ⟨_ | _, _⟩ <;> rfl

/-- Steps one after the other, until one of them is a fault, and the number of instructions that
they have executed. -/
def stepEach : List (Option Nat) → Step Nat
  | [] => pure 0
  | limit :: limits => do
    let first ← step limit
    let rest ← stepEach limits
    return first + rest

/-- The limit under which one step executes as much as all of the steps. -/
def jointLimit : List (Option Nat) → Option Nat
  | [] => some 0
  | none :: _ => none
  | some limit :: limits => (jointLimit limits).map (limit + ·)

/-- What the first step leaves is what the steps behind it can execute. -/
theorem stepCount_cons {m t : Machine} {limit : Option Nat} {limits : List (Option Nat)}
    (ht : t.device.pending = m.device.pending - m.stepCount limit) :
    m.stepCount limit + t.stepCount (jointLimit limits) =
      m.stepCount (jointLimit (limit :: limits)) := by
  cases limit with
  | none =>
    have hnone : t.device.pending = 0 := ht.trans (Nat.sub_self _)
    have hzero : t.stepCount (jointLimit limits) = 0 := by
      cases jointLimit limits with
      | none => exact hnone
      | some n => exact (congrArg (min n) hnone).trans (Nat.min_zero n)
    rw [hzero]
    rfl
  | some k =>
    rw [jointLimit]
    cases jointLimit limits <;> simp only [stepCount, Option.map] at ht ⊢ <;> omega

theorem stepEach_eq_step (limits : List (Option Nat)) :
    stepEach limits = step (jointLimit limits) := by
  induction limits with
  | nil =>
    funext m
    change (Except.ok 0, m) = (step (some 0)).run m
    rw [step_run, stepCount, Nat.zero_min]
    rfl
  | cons limit limits ih =>
    funext m
    change (step limit >>= fun first => stepEach limits >>= fun rest => pure (first + rest)).run m =
      (step (jointLimit (limit :: limits))).run m
    rw [ih, Action.bind_run, step_run, step_run]
    rcases hr : (stepMany (m.stepCount limit)).run m with ⟨fault | _, t⟩
    · -- a fault leaves no queue, so that it is counted in what there would have been left
      have hcount : m.stepCount limit +
          (m.paced (m.device.queue.drop (m.stepCount limit)) 0).stepCount (jointLimit limits) =
          m.stepCount (jointLimit (limit :: limits)) := stepCount_cons List.length_drop
      rw [← hcount, stepMany_add, Action.bind_run, hr]
    · have hcount : _ = m.stepCount (jointLimit (limit :: limits)) :=
        stepCount_cons (pending_stepMany hr)
      rw [← hcount, stepMany_add, Action.bind_run, hr]
      simp only
      rw [Action.bind_run, step_run]
      rcases (stepMany (t.stepCount (jointLimit limits))).run t with ⟨_ | _, _⟩ <;> rfl

theorem step_error {m t : Machine} {limit : Option Nat} {fault : DeviceFault}
    (h : (step limit).run m = (.error fault, t)) :
    ∃ n u, n < m.stepCount limit ∧ Breaks m.device.queue m n fault u ∧
      t = u.paced [] (m.device.executed + n) := by
  rw [step_run] at h
  rcases stepMany_run m (m.stepCount limit) with ⟨u, _, hrun⟩ | ⟨n, fault', u, hn, hbreaks, hrun⟩
  · rw [hrun] at h
    cases h
  · rw [hrun] at h
    cases h
    exact ⟨n, u, hn, hbreaks, rfl⟩

theorem stepEach_of_empty {m : Machine} (hq : m.device.queue = []) (limits : List (Option Nat)) :
    (stepEach limits).run m = (.ok 0, m) := by
  rw [stepEach_eq_step, step_of_empty hq]

/-- However the work of a unit is cut into steps, it is the same work: the steps do what the one
step does that executes as much as all of them. A fault keeps what has been done before it, counts
the instructions before it alone, and leaves nothing to do. -/
theorem steps_joined (m : Machine) (limits : List (Option Nat)) :
    (stepEach limits).run m = (step (jointLimit limits)).run m ∧
      ∀ fault t, (stepEach limits).run m = (.error fault, t) →
        (∃ n u, n < m.stepCount (jointLimit limits) ∧ Breaks m.device.queue m n fault u ∧
          t = u.paced [] (m.device.executed + n)) ∧
        ∀ later, (stepEach later).run t = (.ok 0, t) := by
  rw [stepEach_eq_step]
  refine ⟨rfl, fun fault t h => ?_⟩
  obtain ⟨n, u, hn, hbreaks, rfl⟩ := step_error h
  exact ⟨⟨n, u, hn, hbreaks, rfl⟩, stepEach_of_empty rfl⟩

def overreaching : Machine where
  device := (Device.fresh tinyArch).enqueue
    [.noOp, .dataMove .accumulatorToLocal (.unit 3) (.unit 0) 1, .noOp]
  memory := ⟨[], 0⟩

theorem steps_joined_overreaching : ∃ t : Machine,
    (stepEach [some 1, some 0, none]).run overreaching = (.error (.localRow 4), t) ∧
      t.device.queue = [] ∧ t.device.executed = 1 ∧
      (stepEach [some 2, none]).run t = (.ok 0, t) := by
  have hrun : ((stepEach [some 1, some 0, none]).run overreaching).1 = .error (.localRow 4) ∧
      ((stepEach [some 1, some 0, none]).run overreaching).2.device.executed = 1 := by
    decide +kernel
  have hbreak := (steps_joined overreaching [some 1, some 0, none]).2 _ _ (Prod.ext hrun.1 rfl)
  obtain ⟨⟨n, u, _, _, ht⟩, hlater⟩ := hbreak
  refine ⟨_, Prod.ext hrun.1 rfl, ?_, hrun.2, hlater _⟩
  rw [ht]
  rfl

end TensorUnit.Sim.Machine
