import TensorUnit.Proofs.Sim.Simulator

namespace TensorUnit.Sim

open TensorUnit.Action (Triple Keeps)
open Remote

namespace Machine

/-- The machines that are about to execute an instruction, within a number of steps. -/
def moments (m : Machine) : Nat → List Machine
  | 0 => []
  | count + 1 =>
    if m.device.queue = [] then []
    else m :: match executeNext.run m with
      | (.ok _, t) => moments t count
      | (.error _, _) => []

theorem forall_mem_moments {P E : Machine → Prop} (h : Triple P executeNext (fun _ => P) E)
    {m : Machine} (hm : P m) {count : Nat} :
    ∀ t ∈ m.moments count, P t ∧ t.device.queue ≠ [] := by
  induction count generalizing m with
  | zero => exact fun _ ht => nomatch ht
  | succ count ih =>
    intro t ht
    rw [moments] at ht
    split at ht
    · cases ht
    · rename_i hq
      rcases List.mem_cons.mp ht with rfl | ht
      · exact ⟨hm, hq⟩
      · cases hr : executeNext.run m with
        | mk r u =>
          rw [hr] at ht
          cases r with
          | ok x => exact ih (h.ok hm hr) t ht
          | error e => cases ht

theorem triple_executed {c : Nat} :
    Triple (fun m : Machine => m.device.executed = c) executeNext
      (fun _ m => c ≤ m.device.executed ∧ m.device.executed ≤ c + 1)
      fun m => m.device.executed = c := by
  have hkept : ∀ (m : Machine) instr queue r t, m.device.executed = c →
      (execute instr).run (m.withQueue queue) = (r, t) → t.device.executed = c := by
    intro m instr queue r t hm hr
    have hk := (kept_execute instr (m.withQueue queue)).executed
    rw [hr] at hk
    exact Eq.trans hk hm
  apply triple_executeNext
  · exact fun m hm _ => ⟨Nat.le_of_eq hm.symm, Nat.le_succ_of_le (Nat.le_of_eq hm)⟩
  · intro m instr queue t hm _ hr
    have ht : (countExecuted t).device.executed = c + 1 :=
      congrArg (· + 1) (hkept m instr queue _ t hm hr)
    exact ⟨by omega, Nat.le_of_eq ht⟩
  · exact fun m instr queue fault t hm _ hr => hkept m instr queue _ t hm hr

theorem keeps_executed {n : Nat} :
    Keeps (fun m : Machine => n < m.device.executed) executeNext := by
  refine Triple.strengthen (P := fun m => ∃ c, n < c ∧ m.device.executed = c)
    (Triple.exists fun c => Triple.assume fun hc => ?_) fun m hm => ⟨_, hm, rfl⟩
  exact triple_executed.weaken (fun _ h => h) (fun _ m hm => Nat.lt_of_lt_of_le hc hm.1)
    fun m hm => hm ▸ hc

/-- The unit faults in the instruction that it is about to execute. -/
def Faulting (m : Machine) : Prop :=
  ∃ fault, (executeNext.run m).1 = .error fault

theorem exists_faulting {m t : Machine} {count : Nat} {fault : DeviceFault}
    (h : (stepMany count).run m = (.error fault, t)) : ∃ u ∈ m.moments count, u.Faulting := by
  induction count generalizing m with
  | zero => cases h
  | succ count ih =>
    rw [moments]
    split
    · rename_i hq
      rw [stepMany_of_empty hq] at h
      cases h
    rw [stepMany, Action.bind_run] at h
    cases hr : executeNext.run m with
    | mk r u =>
      rw [hr] at h
      cases r with
      | ok x =>
        obtain ⟨v, hv, hf⟩ := ih h
        exact ⟨v, List.mem_cons_of_mem _ hv, hf⟩
      | error e => exact ⟨m, List.mem_cons_self .., e, by rw [hr]⟩

theorem exists_moment {m : Machine} {count n : Nat} (hm : m.device.executed ≤ n)
    (hn : n < ((stepMany count).run m).2.device.executed) :
    ∃ t ∈ m.moments count, t.device.executed = n := by
  induction count generalizing m with
  | zero => exact absurd hn (Nat.not_lt.mpr hm)
  | succ count ih =>
    rw [moments]
    split
    · rename_i hq
      rw [stepMany_of_empty hq] at hn
      exact absurd hn (Nat.not_lt.mpr hm)
    by_cases he : m.device.executed = n
    · exact ⟨m, List.mem_cons_self .., he⟩
    rw [stepMany, Action.bind_run] at hn
    cases hr : executeNext.run m with
    | mk r u =>
      rw [hr] at hn
      cases r with
      | ok x =>
        have hu := ((triple_executed (c := m.device.executed)).ok rfl hr).2
        obtain ⟨t, ht, hx⟩ := ih (by omega) hn
        exact ⟨t, List.mem_cons_of_mem _ ht, hx⟩
      | error fault =>
        have hu : u.device.executed = m.device.executed := triple_executed.error rfl hr
        exact absurd hn (Nat.not_lt.mpr (hu ▸ hm))

end Machine

namespace Simulator

def prepare (batch : Batch) : Act (List Response) := do
  let up ← Action.view Simulator.up
  Action.require up .notUp
  count fun c => { c with batches := c.batches + 1 }
  applyAll batch

theorem execute_eq (batch : Batch) :
    execute batch = prepare batch >>= fun responses => stepDevice >>= fun _ =>
      pure responses := by
  simp only [execute, prepare, bind_assoc]

theorem machine_onMachine {α : Type} (a : Machine.Step α) (s : Simulator) :
    ((onMachine a).run s).2.machine = (a.run s.machine).2 := by
  rw [onMachine_run]
  rcases a.run s.machine with ⟨_ | _, m⟩ <;> rfl

theorem stepDevice_run (s : Simulator) :
    stepDevice.run s =
      if s.config.stall then (.ok (), s)
      else (onMachine (Machine.stepMany
        (s.machine.stepCount s.config.instructionsPerCall))).run s := by
  change (if s.config.stall then (pure () : Act Unit) else
    (onMachine (Machine.step s.config.instructionsPerCall) >>= fun _ => pure ())).run s = _
  split
  · rfl
  · rw [Action.bind_run, onMachine_run, onMachine_run, Machine.step, Action.bind_run,
      Action.view_run]
    simp only [Action.bind_run]
    cases (Machine.stepMany (s.machine.stepCount s.config.instructionsPerCall)).run s.machine with
    | mk r m => cases r <;> rfl

theorem machine_stepDevice (s : Simulator) :
    (stepDevice.run s).2.machine =
      if s.config.stall then s.machine
      else ((Machine.stepMany (s.machine.stepCount s.config.instructionsPerCall)).run
        s.machine).2 := by
  rw [stepDevice_run]
  split
  · rfl
  · exact machine_onMachine ..

def moments (batch : Batch) (s : Simulator) : List Machine :=
  match (prepare batch).run s with
  | (.ok _, t) =>
    if t.config.stall then []
    else t.machine.moments (t.machine.stepCount t.config.instructionsPerCall)
  | (.error _, _) => []

variable {layout : Tcu.Layout} {P R E : Machine → Prop} {batch : Batch}

theorem triple_prepare (happly : Triple (At layout P) (applyAll batch) (fun _ => At layout R)
      (At layout E)) (hfail : ∀ m, P m → E m) :
    Triple (At layout P) (prepare batch) (fun _ => At layout R) (At layout E) := by
  apply Triple.bind (Q := fun _ => At layout P) (Triple.view fun _ h => h)
  intro up
  refine Triple.bind (Q := fun _ => At layout P) (Triple.require (fun _ _ h => h)
    fun _ _ h => h.mono hfail) fun _ => ?_
  exact triple_count.bind fun _ => happly

theorem forall_mem_moments (happly : Triple (At layout P) (applyAll batch) (fun _ => At layout R)
      (At layout E)) (hstep : Triple R Machine.executeNext (fun _ => R) E) {s : Simulator}
    (hs : At layout P s) : ∀ m ∈ moments batch s, R m ∧ m.device.queue ≠ [] := by
  intro m hm
  rw [moments] at hm
  cases hr : (prepare batch).run s with
  | mk r t =>
    rw [hr] at hm
    cases r with
    | error e => cases hm
    | ok rs =>
      have hprepare := triple_prepare (happly.weaken (fun _ h => h) (fun _ _ h => h)
        fun _ h => h.mono fun _ _ => trivial) fun _ _ => trivial
      simp only at hm
      split at hm
      · cases hm
      · exact Machine.forall_mem_moments hstep (hprepare.ok hs hr).machine m hm

/-- A call that fails although the unit does not fault has failed in its batch. -/
theorem kept_of_not_faulting (happly : Triple (At layout P) (applyAll batch)
      (fun _ => At layout R) (At layout E)) (hfail : ∀ m, P m → E m) {s t : Simulator}
    (hs : At layout P s) {e : RemoteError} (hr : (execute batch).run s = (.error e, t))
    (hn : ∀ m ∈ moments batch s, ¬ m.Faulting) : At layout E t := by
  rw [moments] at hn
  rw [execute_eq, Action.bind_run] at hr
  cases hprepare : (prepare batch).run s with
  | mk r u =>
    rw [hprepare] at hr hn
    cases r with
    | error e =>
      cases hr
      exact (triple_prepare happly hfail).error hs hprepare
    | ok rs =>
      have hstep : (stepDevice >>= fun _ => pure rs).run u = (.error e, t) := hr
      rw [Action.bind_run, stepDevice_run] at hstep
      simp only at hn
      by_cases hstall : u.config.stall = true
      · rw [if_pos hstall] at hstep
        cases hstep
      · rw [if_neg hstall] at hstep hn
        rw [onMachine_run] at hstep
        cases hm : (Machine.stepMany (u.machine.stepCount u.config.instructionsPerCall)).run
            u.machine with
        | mk r v =>
          rw [hm] at hstep
          cases r with
          | ok x => cases hstep
          | error fault =>
            obtain ⟨m, hmem, hf⟩ := Machine.exists_faulting hm
            exact absurd hf (hn m hmem)

theorem executed_prepare (batch : Batch) (n : Nat) :
    Keeps (fun s : Simulator => s.device.executed = n) (prepare batch) := by
  refine Keeps.bind Keeps.view fun _ => Keeps.bind Keeps.require fun _ =>
    Keeps.bind (Keeps.update fun _ h => h) fun _ => ?_
  exact Indifferent.applyAll ⟨fun _ _ h => h, fun _ _ h => h, fun _ _ h => h⟩ fun _ _ _ _ _ h => h

theorem exists_moment {s : Simulator} {n : Nat} (hs : s.device.executed ≤ n)
    (hn : n < ((execute batch).run s).2.device.executed) :
    ∃ m ∈ moments batch s, m.device.executed = n := by
  have hprepare := (executed_prepare batch s.device.executed).state (s := s) rfl
  rw [execute_eq, Action.bind_run] at hn
  rw [moments]
  cases hr : (prepare batch).run s with
  | mk r t =>
    rw [hr] at hn hprepare
    have ht : t.machine.device.executed ≤ n := Nat.le_trans (Nat.le_of_eq hprepare) hs
    cases r with
    | error e => exact absurd hn (Nat.not_lt.mpr ht)
    | ok rs =>
      have hn : n < ((stepDevice >>= fun _ => pure rs).run t).2.machine.device.executed := hn
      rw [Action.bind_pure_run, machine_stepDevice] at hn
      simp only
      split at hn
      · exact absurd hn (Nat.not_lt.mpr ht)
      · rename_i hstall
        rw [if_neg hstall]
        exact Machine.exists_moment ht hn

end Simulator

section Replay

/-- The instance behind a switch once it has been called with some batches, the first one first. -/
def replay (w : Switch Simulator) : List Batch → Switch Simulator
  | [] => w
  | batch :: batches => replay ((Switch.send batch).run w).2 batches

/-- The machines that are about to execute an instruction in a call, which may not reach the
instance. -/
def callMoments (w : Switch Simulator) (batch : Batch) : List Machine :=
  match w.plan.calls.lookup w.call with
  | some (.fail _) => []
  | _ => w.remote.moments batch

def replayMoments (w : Switch Simulator) : List Batch → List Machine
  | [] => []
  | batch :: batches =>
    callMoments w batch ++ replayMoments ((Switch.send batch).run w).2 batches

/-- The batches with which the instance has been called since it was in an earlier state. -/
def callsSince (w₀ w : Switch Simulator) : List Batch :=
  (w.log.take (w.log.length - w₀.log.length)).reverse

variable {w₀ w : Switch Simulator} {M : Machine → Prop} {batch : Batch}

theorem replay_append (w : Switch Simulator) (first second : List Batch) :
    replay w (first ++ second) = replay (replay w first) second := by
  induction first generalizing w with
  | nil => rfl
  | cons batch rest ih => exact ih _

theorem replayMoments_append (w : Switch Simulator) (first second : List Batch) :
    replayMoments w (first ++ second) =
      replayMoments w first ++ replayMoments (replay w first) second := by
  induction first generalizing w with
  | nil => rfl
  | cons batch rest ih =>
    rw [List.cons_append, replayMoments, ih, replayMoments, List.append_assoc]
    rfl

theorem send_run (w : Switch Simulator) (batch : Batch) :
    ((Switch.send batch).run w).2 =
      { w with
        remote := match w.plan.calls.lookup w.call with
          | some (.fail _) => w.remote
          | _ => ((Simulator.execute batch).run w.remote).2
        call := w.call + 1
        log := batch :: w.log } := by
  cases hc : w.plan.calls.lookup w.call with
  | none => rw [On.send_run_none hc]
  | some interference =>
    cases interference with
    | fail error => rw [On.send_run_fail hc]
    | answer responses =>
      rw [Switch.send, Action.bind_run, record_run, hc]
      exact Action.bind_pure_run _ _

theorem exists_replayMoment {batches : List Batch} {n : Nat}
    (hw : w.remote.device.executed ≤ n) (hn : n < (replay w batches).remote.device.executed) :
    ∃ m ∈ replayMoments w batches, m.device.executed = n := by
  induction batches generalizing w with
  | nil => exact absurd hn (Nat.not_lt.mpr hw)
  | cons batch rest ih =>
    by_cases hlt : n < ((Switch.send batch).run w).2.remote.device.executed
    · have hcall : ∃ m ∈ callMoments w batch, m.device.executed = n := by
        rw [send_run] at hlt
        simp only at hlt
        unfold callMoments
        split at hlt
        · exact absurd hlt (Nat.not_lt.mpr hw)
        · exact Simulator.exists_moment hw hlt
      obtain ⟨m, hm, he⟩ := hcall
      exact ⟨m, List.mem_append_left _ hm, he⟩
    · obtain ⟨m, hm, he⟩ := ih (Nat.not_lt.mp hlt) hn
      exact ⟨m, List.mem_append_right _ hm, he⟩

/-- The instance has come from an earlier state by the calls in its log alone, and every moment on
the way is in a set of machines. -/
def Watched (w₀ : Switch Simulator) (M : Machine → Prop) (w : Switch Simulator) : Prop :=
  ∃ batches, w.log = batches.reverse ++ w₀.log ∧ replay w₀ batches = w ∧
    ∀ m ∈ replayMoments w₀ batches, M m

theorem watched_refl : Watched w M w :=
  ⟨[], rfl, rfl, fun _ hm => nomatch hm⟩

theorem callsSince_eq {batches : List Batch} (h : w.log = batches.reverse ++ w₀.log) :
    callsSince w₀ w = batches := by
  rw [callsSince, h, List.length_append, Nat.add_sub_cancel, List.take_left, List.reverse_reverse]

theorem Watched.callsSince (h : Watched w₀ M w) :
    replay w₀ (callsSince w₀ w) = w ∧ ∀ m ∈ replayMoments w₀ (callsSince w₀ w), M m := by
  obtain ⟨batches, hlog, hreplay, hM⟩ := h
  rw [callsSince_eq hlog]
  exact ⟨hreplay, hM⟩

theorem Watched.send (h : Watched w₀ M w) (hM : ∀ m ∈ callMoments w batch, M m)
    {r : Except RemoteError (List Response)} {t : Switch Simulator}
    (hr : (Service.execute batch : Action (Switch Simulator) RemoteError _).run w = (r, t)) :
    Watched w₀ M t := by
  obtain ⟨batches, hlog, rfl, hbefore⟩ := h
  obtain rfl : ((Switch.send batch).run (replay w₀ batches)).2 = t := congrArg Prod.snd hr
  refine ⟨batches ++ [batch], ?_, replay_append .., fun m hm => ?_⟩
  · rw [send_run, List.reverse_append, List.append_assoc, ← hlog]
    rfl
  · rw [replayMoments_append] at hm
    rcases List.mem_append.mp hm with hm | hm
    · exact hbefore m hm
    · rw [replayMoments, replayMoments, List.append_nil] at hm
      exact hM m hm

theorem keeps_watched : Keeps (Watched w₀ fun _ => True)
    (Service.execute batch : Action (Switch Simulator) RemoteError _) :=
  .of_run (fun _ _ _ hw hr => hw.send (fun _ _ => trivial) hr)
    fun _ _ _ hw hr => hw.send (fun _ _ => trivial) hr

variable {layout : Tcu.Layout} {P R : Machine → Prop}

/-- What is known behind the batch of a call, and kept by the unit, is known at every moment of the
call. -/
theorem triple_watched {E : Machine → Prop}
    (happly : Triple (Simulator.At layout P) (Simulator.applyAll batch)
      (fun _ => Simulator.At layout R) (Simulator.At layout E))
    (hstep : Triple R Machine.executeNext (fun _ => R) E) (hfail : ∀ m, P m → E m)
    (hM : ∀ m, R m → m.device.queue ≠ [] → M m) :
    Triple (fun w => Watched w₀ M w ∧ On layout P w)
      (Service.execute batch : Action (Switch Simulator) RemoteError _)
      (fun _ w => Watched w₀ M w ∧ On layout R w) fun w => Watched w₀ M w ∧ On layout E w := by
  have hcall := On.triple_send
    (Simulator.triple_execute (R := fun _ => R) happly (fun _ => hstep) hfail) hfail
  have hmoments : ∀ w, On layout P w → ∀ m ∈ callMoments w batch, M m := by
    intro w hw m hm
    unfold callMoments at hm
    split at hm
    · cases hm
    · obtain ⟨hR, hq⟩ := Simulator.forall_mem_moments happly hstep hw.remote m hm
      exact hM m hR hq
  exact .of_run (fun w _ _ hw hr => ⟨hw.1.send (hmoments w hw.2) hr, hcall.ok hw.2 hr⟩)
    fun w _ _ hw hr => ⟨hw.1.send (hmoments w hw.2) hr, hcall.error hw.2 hr⟩

/-- How calls are followed. Behind one that fails `X` is known: either its batch has failed, which
leaves `K`, or the unit has faulted, which leaves `E`. -/
def Follows (layout : Tcu.Layout) (w₀ : Switch Simulator) (M K E : Machine → Prop)
    (X : Switch Simulator → Prop) : Prop :=
  ∀ {batch : Batch} {P R : Machine → Prop},
    Triple (Simulator.At layout P) (Simulator.applyAll batch) (fun _ => Simulator.At layout R)
      (Simulator.At layout K) → Triple R Machine.executeNext (fun _ => R) E → (∀ m, P m → K m) →
    (∀ m, R m → m.device.queue ≠ [] → M m) →
    Triple (fun w => Watched w₀ M w ∧ On layout P w)
      (Service.execute batch : Action (Switch Simulator) RemoteError _)
      (fun _ w => Watched w₀ M w ∧ On layout R w) X

theorem follows_watched {E : Machine → Prop} :
    Follows layout w₀ M E E fun w => Watched w₀ M w ∧ On layout E w :=
  fun happly hstep hfail hM => triple_watched happly hstep hfail hM

/-- The unit has faulted in a call since the instance was in an earlier state. -/
def Faulted (w₀ w : Switch Simulator) : Prop :=
  ∃ m ∈ replayMoments w₀ (callsSince w₀ w), m.Faulting

theorem Watched.faulted_send (h : Watched w₀ M w)
    (hf : Faulted w₀ w ∨ ∃ m ∈ callMoments w batch, m.Faulting)
    {r : Except RemoteError (List Response)} {t : Switch Simulator}
    (hr : (Service.execute batch : Action (Switch Simulator) RemoteError _).run w = (r, t)) :
    Faulted w₀ t := by
  obtain ⟨batches, hlog, rfl, _⟩ := h
  obtain rfl : ((Switch.send batch).run (replay w₀ batches)).2 = t := congrArg Prod.snd hr
  have hlog' : ((Switch.send batch).run (replay w₀ batches)).2.log =
      (batches ++ [batch]).reverse ++ w₀.log := by
    rw [send_run, List.reverse_append, List.append_assoc, ← hlog]
    rfl
  rw [Faulted, callsSince_eq hlog] at hf
  rw [Faulted, callsSince_eq hlog', replayMoments_append]
  rcases hf with ⟨m, hm, hf⟩ | ⟨m, hm, hf⟩
  · exact ⟨m, List.mem_append_left _ hm, hf⟩
  · exact ⟨m, List.mem_append_right _ (List.mem_append_left _ hm), hf⟩

theorem On.kept_of_not_faulting {E : Machine → Prop}
    (happly : Triple (Simulator.At layout P) (Simulator.applyAll batch)
      (fun _ => Simulator.At layout R) (Simulator.At layout E)) (hfail : ∀ m, P m → E m)
    (hw : On layout P w) {e : RemoteError} {t : Switch Simulator}
    (hr : (Service.execute batch : Action (Switch Simulator) RemoteError _).run w = (.error e, t))
    (hn : ∀ m ∈ callMoments w batch, ¬ m.Faulting) : On layout E t := by
  change (Switch.send batch).run w = _ at hr
  cases hc : w.plan.calls.lookup w.call with
  | none =>
    rw [callMoments, hc] at hn
    rw [On.send_run_none hc] at hr
    cases hs : (Simulator.execute batch).run w.remote with
    | mk r remote =>
      rw [hs] at hr
      cases hr
      exact ⟨hw.plan, Simulator.kept_of_not_faulting happly hfail hw.remote hs hn⟩
  | some interference =>
    obtain ⟨error, rfl⟩ := hw.plan.fails hc
    rw [On.send_run_fail hc] at hr
    cases hr
    exact ⟨hw.plan, hw.remote.mono hfail⟩

def KeptOrFaulted (layout : Tcu.Layout) (w₀ : Switch Simulator) (K E : Machine → Prop)
    (w : Switch Simulator) : Prop :=
  Watched w₀ (fun _ => True) w ∧ (On layout K w ∨ Faulted w₀ w ∧ On layout E w)

theorem follows_faulted {K E : Machine → Prop} (hKE : ∀ m, K m → E m) :
    Follows layout w₀ (fun _ => True) K E (KeptOrFaulted layout w₀ K E) := by
  intro batch P R happly hstep hfail _
  have hcall := On.triple_send (Simulator.triple_execute (R := fun _ => R)
    (happly.weaken (fun _ h => h) (fun _ _ h => h) fun _ h => h.mono hKE) (fun _ => hstep)
    fun m hm => hKE m (hfail m hm)) fun m hm => hKE m (hfail m hm)
  refine .of_run (fun w _ _ hw hr => ⟨hw.1.send (fun _ _ => trivial) hr, hcall.ok hw.2 hr⟩)
    fun w e t hw hr => ⟨hw.1.send (fun _ _ => trivial) hr, ?_⟩
  by_cases hf : ∃ m ∈ callMoments w batch, m.Faulting
  · exact .inr ⟨hw.1.faulted_send (.inr hf) hr, hcall.error hw.2 hr⟩
  · exact .inl (hw.2.kept_of_not_faulting happly hfail hr fun m hm hm' => hf ⟨m, hm, hm'⟩)

theorem keeps_keptOrFaulted {K E : Machine → Prop} (hKE : ∀ m, K m → E m)
    (hkept : Keeps (Simulator.At layout K) (Simulator.applyAll batch))
    (hfaulted : Keeps (Simulator.At layout E) (Simulator.applyAll batch))
    (hstep : Triple K Machine.executeNext (fun _ => K) E) (hkeep : Keeps E Machine.executeNext) :
    Keeps (KeptOrFaulted layout w₀ K E)
      (Service.execute batch : Action (Switch Simulator) RemoteError _) := by
  have hfollows : Follows layout w₀ (fun _ => True) K E (KeptOrFaulted layout w₀ K E) :=
    follows_faulted hKE
  have hbefore := (hfollows hkept hstep (fun _ h => h) fun _ _ _ => trivial).relax
    fun _ _ hw => (⟨hw.1, .inl hw.2⟩ : KeptOrFaulted layout w₀ K E _)
  have hbehind := On.triple_send (Simulator.triple_execute (R := fun _ => E) hfaulted
    (fun _ => hkeep) fun _ h => h) fun _ h => h
  refine .of_run (fun w rs t hw hr => ?_) fun w e t hw hr => ?_
  · rcases hw.2 with hk | ⟨hf, he⟩
    · exact hbefore.ok ⟨hw.1, hk⟩ hr
    · exact ⟨hw.1.send (fun _ _ => trivial) hr, .inr ⟨hw.1.faulted_send (.inl hf) hr,
        hbehind.ok he hr⟩⟩
  · rcases hw.2 with hk | ⟨hf, he⟩
    · exact hbefore.error ⟨hw.1, hk⟩ hr
    · exact ⟨hw.1.send (fun _ _ => trivial) hr, .inr ⟨hw.1.faulted_send (.inl hf) hr,
        hbehind.error he hr⟩⟩

theorem keeps_watched_past {n : Nat} (hM : ∀ m : Machine, n < m.device.executed → M m) :
    Keeps (fun w => Watched w₀ M w ∧ On layout (fun m => n < m.device.executed) w)
      (Service.execute batch : Action (Switch Simulator) RemoteError _) := by
  have happly : Keeps (Simulator.At layout fun m => n < m.device.executed)
      (Simulator.applyAll batch) :=
    Simulator.Indifferent.applyAll ⟨fun _ _ h => ⟨h.layout, h.machine⟩,
      fun _ _ h => ⟨h.layout, h.machine⟩, fun _ _ h => ⟨h.layout, h.machine⟩⟩
      fun _ _ _ _ _ h => ⟨h.layout, h.machine⟩
  exact triple_watched happly Machine.keeps_executed (fun _ h => h) fun m hm _ => hM m hm

end Replay

end TensorUnit.Sim
