import Mathlib.Data.Int.ModEq
import TensorUnit.Proofs.Host.Confinement

namespace TensorUnit.Host

open TensorUnit.Action (Triple Keeps)
open Remote
open Sim (Simulator)

namespace Probe

variable {p : Probe} {g g' : Nat}

def inGeneration (p : Probe) (g : Nat) : Probe :=
  { p with generation := g }

theorem generation_ofArchitecture {arch : Architecture} (hp : ofArchitecture arch = .ok p) :
    p.generation = 0 := by
  unfold ofArchitecture at hp
  split at hp
  · cases hp
  · cases hp
    rfl

/-- The other probe is this one, whether it is outstanding or not. -/
def Like (p q : Probe) : Prop :=
  ∃ outstanding, q = { p with outstanding }

theorem stamp_inGeneration (hmax : 1 ≤ p.maxRaw) (hg : 1 ≤ g) :
    (p.inGeneration g).stamp = 1 + ((g : Int) - 1) % p.maxRaw := by
  rw [stamp]
  change 1 + ((g - 1 : Nat) : Int) % max p.maxRaw 1 = _
  rw [Int.max_eq_left hmax, Int.natCast_sub hg, Int.natCast_one]

theorem stamp_eq_iff (hmax : 1 ≤ p.maxRaw) (hg : 1 ≤ g) (hg' : 1 ≤ g') :
    (p.inGeneration g).stamp = (p.inGeneration g').stamp ↔ g ≡ g' [ZMOD p.maxRaw] := by
  rw [stamp_inGeneration hmax hg, stamp_inGeneration hmax hg', Int.add_right_inj]
  constructor
  · intro h
    have hnext := Int.ModEq.add_right 1 h
    rwa [Int.sub_add_cancel, Int.sub_add_cancel] at hnext
  · intro h
    exact h.sub_right 1

theorem pattern_eq (h : p.arraySize.toNat < scalarLimit) :
    p.pattern = .ok (List.replicate p.arraySize.toNat p.stamp) := by
  rw [pattern, row, if_pos h]

theorem pattern_eq_error (h : ¬ p.arraySize.toNat < scalarLimit) :
    p.pattern = .error .tooLarge := by
  rw [pattern, row, if_neg h]

theorem pattern_eq_iff (hmax : 1 ≤ p.maxRaw) (hpos : 0 < p.arraySize.toNat)
    (hlimit : p.arraySize.toNat < scalarLimit) (hg : 1 ≤ g) (hg' : 1 ≤ g') :
    (p.inGeneration g).pattern = (p.inGeneration g').pattern ↔ g ≡ g' [ZMOD p.maxRaw] := by
  have hpattern : ∀ n, (p.inGeneration n).pattern =
      .ok (List.replicate p.arraySize.toNat (p.inGeneration n).stamp) := fun n => pattern_eq hlimit
  rw [hpattern g, hpattern g', Except.ok.injEq, List.replicate_right_inj (Nat.ne_of_gt hpos),
    stamp_eq_iff hmax hg hg']

end Probe

/-- Of numbers in a row, as many as the modulus have different remainders. -/
theorem nodup_remainders {m : Int} {count : Nat} (h : count ≤ m.toNat) (n start : Nat) :
    ((((List.range n).map fun i : Nat => 1 + (i : Int) % m).drop start).take count).Nodup := by
  have hwithin : ∀ x ∈ ((List.range n).drop start).take count, start ≤ x ∧ x < start + count := by
    intro x hx
    obtain ⟨i, hi, rfl⟩ := List.mem_iff_getElem.mp hx
    rw [List.length_take] at hi
    rw [List.getElem_take, List.getElem_drop, List.getElem_range]
    omega
  rw [← List.map_drop, ← List.map_take]
  apply List.Nodup.map_on
  · intro x hx y hy hxy
    have hmod : (x : Int) ≡ y [ZMOD m] := Int.add_left_cancel hxy
    have hx := hwithin x hx
    have hy := hwithin y hy
    have hzero : (y : Int) - x = 0 := by
      apply Int.eq_zero_of_abs_lt_dvd hmod.dvd
      rw [abs_lt]
      omega
    omega
  · exact List.nodup_range.sublist ((List.take_sublist _ _).trans (List.drop_sublist _ _))

namespace Probing

variable {σ : Type} [Service σ] {s t : Probing σ} {dram0 : Mem} {policy : FlushPolicy}

section Keeping

variable {B : Probe → Prop}

omit [Service σ] in
theorem keeps_onRemote {α : Type} (a : Action σ DriverError α) :
    Keeps (fun s : Probing σ => B s.probe) (onRemote a) := by
  intro s hs
  rw [onRemote_run]
  cases (a.run s.remote).1 with
  | ok => exact hs
  | error => exact hs

theorem keeps_isObserved : Keeps (fun s : Probing σ => B s.probe) (isObserved dram0) := by
  apply Keeps.bind Keeps.view
  intro p
  apply Keeps.bind Keeps.ofExcept
  intro pattern
  apply Keeps.bind Keeps.ofExcept
  intro address
  exact keeps_onRemote _

variable (hB : ∀ p outstanding, B p → B { p with outstanding })
include hB

theorem keeps_poll (polls more : Nat) :
    Keeps (fun s : Probing σ => B s.probe) (poll dram0 polls more) := by
  induction more generalizing polls with
  | zero => exact Keeps.fail
  | succ more ih =>
    apply Keeps.bind keeps_isObserved
    intro seen
    cases seen with
    | false => exact ih _
    | true =>
      apply Keeps.bind (Keeps.update fun s hs => hB s.probe false hs)
      intro _
      exact Keeps.pure

theorem keeps_wait : Keeps (fun s : Probing σ => B s.probe) (wait dram0 policy) := by
  apply Keeps.bind (Keeps.update fun s hs => hB s.probe true hs)
  intro _
  apply Keeps.bind Keeps.view
  intro more
  exact keeps_poll hB _ _

theorem keeps_settle : Keeps (fun s : Probing σ => B s.probe) (settle dram0 policy) := by
  apply Keeps.bind Keeps.view
  intro p
  cases p.outstanding with
  | false => exact Keeps.pure
  | true =>
    apply Keeps.bind (keeps_wait hB)
    intro _
    exact Keeps.pure

end Keeping

def writeRows (p : Probe) (dram0 : Mem) : Act σ Unit := do
  let pattern ← ofSpec p.pattern
  let zeroes ← ofSpec (p.row 0)
  onRemote (dram0.write (← ofSpec (p.scalar p.source)) pattern)
  onRemote (dram0.write (← ofSpec (p.scalar p.target)) zeroes)

theorem arm_run_idle (ho : s.probe.outstanding = false) :
    (arm dram0).run s = (writeRows s.probe.advance dram0).run ⟨s.probe.advance, s.remote⟩ := by
  have hidle : ¬ s.probe.outstanding = true := by
    rw [ho]
    exact Bool.false_ne_true
  rw [arm, Action.bind_run]
  change (Action.require (¬ s.probe.outstanding = true) _ >>= _).run s = _
  rw [Action.bind_run, Action.require_run, if_pos hidle]
  rfl

theorem keeps_writeRows {B : Probe → Prop} (p : Probe) :
    Keeps (fun s : Probing σ => B s.probe) (writeRows p dram0) := by
  apply Keeps.bind Keeps.ofExcept
  intro pattern
  apply Keeps.bind Keeps.ofExcept
  intro zeroes
  apply Keeps.bind Keeps.ofExcept
  intro source
  apply Keeps.bind (keeps_onRemote _)
  intro _
  apply Keeps.bind Keeps.ofExcept
  intro target
  exact keeps_onRemote _

theorem arm_probe (ho : s.probe.outstanding = false) :
    ((arm dram0).run s).2.probe = s.probe.advance := by
  rw [arm_run_idle ho]
  exact (keeps_writeRows (B := (· = s.probe.advance)) _).state rfl

theorem arm_writes (h : (arm dram0).run s = (.ok (), t)) :
    s.probe.outstanding = false ∧
    ∃ source target between, s.probe.scalar s.probe.source = .ok source ∧
      s.probe.scalar s.probe.target = .ok target ∧
      (dram0.write source (List.replicate s.probe.arraySize.toNat t.probe.stamp)).run s.remote =
        (.ok (), between) ∧
      (dram0.write target (List.replicate s.probe.arraySize.toNat 0)).run between =
        (.ok (), t.remote) := by
  cases ho : s.probe.outstanding with
  | true =>
    rw [arm_run_outstanding ho] at h
    cases h
  | false =>
    rw [arm_run_idle ho] at h
    obtain ⟨pattern, _, hr, h⟩ := Action.exists_of_bind_run h
    obtain ⟨hpattern, rfl⟩ := ofSpec_run_eq_ok hr
    obtain rfl := Probe.row_eq_ok hpattern
    obtain ⟨zeroes, _, hr, h⟩ := Action.exists_of_bind_run h
    obtain ⟨hzeroes, rfl⟩ := ofSpec_run_eq_ok hr
    obtain rfl := Probe.row_eq_ok hzeroes
    obtain ⟨source, _, hr, h⟩ := Action.exists_of_bind_run h
    obtain ⟨hsource, rfl⟩ := ofSpec_run_eq_ok hr
    obtain ⟨_, u, hfirst, h⟩ := Action.exists_of_bind_run h
    obtain ⟨target, _, hr, hsecond⟩ := Action.exists_of_bind_run h
    obtain ⟨htarget, rfl⟩ := ofSpec_run_eq_ok hr
    rw [onRemote_run, Prod.mk.injEq] at hfirst hsecond
    obtain ⟨hfirst, rfl⟩ := hfirst
    obtain ⟨hsecond, rfl⟩ := hsecond
    exact ⟨rfl, source, target, _, hsource, htarget, Prod.ext hfirst rfl, Prod.ext hsecond rfl⟩

/-- What happens to a probe and its instance: a call of the probe, or something else that the
instance does. -/
inductive Event (σ : Type) where
  | arm (dram0 : Mem)
  | observe (dram0 : Mem)
  | wait (dram0 : Mem) (policy : FlushPolicy)
  | settle (dram0 : Mem) (policy : FlushPolicy)
  | elsewhere (change : σ → σ)

namespace Event

def call : Event σ → Act σ Unit
  | .arm dram0 => Probing.arm dram0
  | .observe dram0 => do let _ ← isObserved dram0
  | .wait dram0 policy => do let _ ← Probing.wait dram0 policy
  | .settle dram0 policy => do let _ ← Probing.settle dram0 policy
  | .elsewhere change => onRemote (Action.update change)

def after (e : Event σ) (s : Probing σ) : Probing σ :=
  (e.call.run s).2

def arms : Event σ → Probing σ → Bool
  | .arm _, s => !s.probe.outstanding
  | _, _ => false

theorem probe_after_of_arms {e : Event σ} (h : e.arms s = true) :
    (e.after s).probe = s.probe.advance := by
  cases e with
  | arm dram0 =>
    rw [arms, Bool.not_eq_true'] at h
    rw [after, call]
    exact arm_probe h
  | observe | wait | settle | elsewhere => cases h

/-- Nothing but an attempt to arm the probe begins a generation. -/
theorem probe_after_of_not_arms {e : Event σ} (h : e.arms s = false) :
    s.probe.Like (e.after s).probe := by
  have hsame : ∀ p outstanding, s.probe.Like p → s.probe.Like { p with outstanding } := by
    rintro p outstanding ⟨_, rfl⟩
    exact ⟨outstanding, rfl⟩
  have hstart : s.probe.Like s.probe := ⟨_, rfl⟩
  have hquiet : ∀ {α : Type} {a : Act σ α}, Keeps (fun t => s.probe.Like t.probe) a →
      Keeps (fun t => s.probe.Like t.probe) (a >>= fun _ => pure ()) :=
    fun ha => Keeps.bind ha fun _ => Keeps.pure
  cases e with
  | arm dram0 =>
    rw [arms, Bool.not_eq_false'] at h
    rw [after, call, arm_run_outstanding h]
    exact hstart
  | observe dram0 =>
    rw [after, call]
    exact (hquiet keeps_isObserved).state hstart
  | wait dram0 policy =>
    rw [after, call]
    exact (hquiet (keeps_wait hsame)).state hstart
  | settle dram0 policy =>
    rw [after, call]
    exact (hquiet (keeps_settle hsame)).state hstart
  | elsewhere change =>
    rw [after, call]
    exact (keeps_onRemote _).state hstart

end Event

def run (events : List (Event σ)) (s : Probing σ) : Probing σ :=
  events.foldl (fun s e => e.after s) s

/-- The stamps of the generations that a run begins. -/
def stamps : List (Event σ) → Probing σ → List Int
  | [], _ => []
  | e :: rest, s =>
    if e.arms s then (e.after s).probe.stamp :: stamps rest (e.after s)
    else stamps rest (e.after s)

theorem run_probe (events : List (Event σ)) (s : Probing σ) :
    (s.probe.inGeneration (s.probe.generation + (stamps events s).length)).Like
      (run events s).probe := by
  induction events generalizing s with
  | nil => exact ⟨_, rfl⟩
  | cons e rest ih =>
    obtain ⟨outstanding, hrest⟩ := ih (e.after s)
    refine ⟨outstanding, ?_⟩
    change (run rest (e.after s)).probe = _
    rw [hrest, stamps]
    cases harms : e.arms s with
    | true =>
      rw [Event.probe_after_of_arms harms, if_pos rfl, List.length_cons,
        Nat.add_comm (List.length _), ← Nat.add_assoc]
      rfl
    | false =>
      obtain ⟨_, hstep⟩ := Event.probe_after_of_not_arms harms
      rw [hstep]
      rfl

theorem stamps_eq (events : List (Event σ)) (s : Probing σ) :
    stamps events s = (List.range (stamps events s).length).map fun i =>
      (s.probe.inGeneration (s.probe.generation + (i + 1))).stamp := by
  induction events generalizing s with
  | nil => rfl
  | cons e rest ih =>
    have hrest := ih (e.after s)
    rw [stamps]
    cases harms : e.arms s with
    | true =>
      rw [if_pos rfl, List.length_cons, List.range_succ_eq_map, List.map_cons, List.map_map]
      rw [Event.probe_after_of_arms harms] at hrest ⊢
      apply congrArg (List.cons _)
      apply hrest.trans
      apply List.map_congr_left
      intro i _
      have hnext : s.probe.generation + 1 + (i + 1) = s.probe.generation + (i + 1 + 1) := by omega
      exact congrArg (fun g => (s.probe.inGeneration g).stamp) hnext
    | false =>
      obtain ⟨_, hstep⟩ := Event.probe_after_of_not_arms harms
      rw [hstep] at hrest
      exact hrest

/-- The stamps of a probe over any run of its calls. An attempt to arm it is refused while it is
outstanding, and otherwise begins the next generation even if it fails; one that succeeds has
written the stamps of its generation. Every stamp is a positive value of the data type, and as many
generations in a row as there are such values have different stamps; the rows of two generations are
the same exactly if these are congruent. -/
theorem stamps_fresh {arch : Architecture} {p : Probe} (hp : Probe.ofArchitecture arch = .ok p)
    (remote : σ) (events : List (Event σ)) :
    let s := run events ⟨p, remote⟩
    let used := stamps events ⟨p, remote⟩
    (∀ dram0,
      (s.probe.outstanding = true →
        (arm dram0).run s = (.error (.configuration .rearmed), s)) ∧
      (s.probe.outstanding = false → ((arm dram0).run s).2.probe = s.probe.advance) ∧
      ∀ t, (arm dram0).run s = (.ok (), t) →
        s.probe.outstanding = false ∧
        ∃ source target between, s.probe.scalar s.probe.source = .ok source ∧
          s.probe.scalar s.probe.target = .ok target ∧
          (dram0.write source (List.replicate arch.arraySize.toNat t.probe.stamp)).run s.remote =
            (.ok (), between) ∧
          (dram0.write target (List.replicate arch.arraySize.toNat 0)).run between =
            (.ok (), t.remote)) ∧
    (p.inGeneration used.length).Like s.probe ∧
    used = (List.range used.length).map (fun i : Nat => 1 + (i : Int) % arch.dataType.maxRaw) ∧
    (∀ start count, count ≤ arch.dataType.maxRaw.toNat →
      ((used.drop start).take count).Nodup) ∧
    ∀ g, 1 ≤ g →
      (1 ≤ (p.inGeneration g).stamp ∧ (p.inGeneration g).stamp ≤ arch.dataType.maxRaw ∧
        arch.dataType.Holds (p.inGeneration g).stamp) ∧
      (arch.arraySize.toNat < scalarLimit → (p.inGeneration g).pattern =
        .ok (List.replicate arch.arraySize.toNat (p.inGeneration g).stamp)) ∧
      ∀ g', 1 ≤ g' → 0 < arch.arraySize.toNat → arch.arraySize.toNat < scalarLimit →
        ((p.inGeneration g).pattern = (p.inGeneration g').pattern ↔
          g ≡ g' [ZMOD arch.dataType.maxRaw]) := by
  intro s used
  obtain ⟨_, _, _, _, hsize, hraw, _⟩ := Probe.ofArchitecture_eq_ok hp
  have hgeneration := Probe.generation_ofArchitecture hp
  have hmax : 1 ≤ p.maxRaw := hraw ▸ arch.dataType.one_le_maxRaw
  have hprobe : (p.inGeneration used.length).Like s.probe := by
    have hrun := run_probe events ⟨p, remote⟩
    change (p.inGeneration (p.generation + used.length)).Like s.probe at hrun
    rwa [hgeneration, Nat.zero_add] at hrun
  have hused : used =
      (List.range used.length).map fun i : Nat => 1 + (i : Int) % arch.dataType.maxRaw := by
    apply (stamps_eq events ⟨p, remote⟩).trans
    apply List.map_congr_left
    intro i _
    change (p.inGeneration (p.generation + (i + 1))).stamp = _
    have hbefore : ((0 + (i + 1) : Nat) : Int) - 1 = i := by omega
    rw [Probe.stamp_inGeneration hmax (by omega), hgeneration, hraw, hbefore]
  have hholds : ∀ g, arch.dataType.Holds (p.inGeneration g).stamp := fun g =>
    Probe.holds_stamp hraw
  have harraySize : s.probe.arraySize = arch.arraySize := by
    obtain ⟨_, h⟩ := hprobe
    rw [h]
    exact hsize
  refine ⟨fun dram0 => ⟨arm_run_outstanding, arm_probe, fun t ht => ?_⟩, hprobe, hused,
    fun start count hc => ?_, fun g hg => ⟨⟨?_, (hholds g).2, hholds g⟩, fun hlimit => ?_,
      fun g' hg' hpos hlimit => ?_⟩⟩
  · have hwrites := arm_writes ht
    rwa [harraySize] at hwrites
  · rw [hused]
    exact nodup_remainders hc _ _
  · exact (p.inGeneration g).stamp_pos
  · rw [← hsize] at hlimit ⊢
    exact Probe.pattern_eq hlimit
  · rw [← hsize] at hpos hlimit
    rw [← hraw]
    exact Probe.pattern_eq_iff hmax hpos hlimit hg hg'

section Small

def disturbed (dram0 : Mem) : List (Event (Switch Simulator)) :=
  let policy : FlushPolicy := ⟨⟨0, 2⟩, .zero⟩
  [.arm dram0, .wait dram0 policy, .arm dram0, .settle dram0 policy,
    .elsewhere fun w => ((dram0.write ⟨1⟩ [1]).run w).2,
    .settle dram0 policy, .arm dram0,
    .elsewhere (·.replan ⟨[(0, .fail .notUp)], none, none⟩), .arm dram0]

/-- Of four attempts one is refused and one fails, so that there are three generations; the row of
the first one comes back when all stamps have been used. -/
theorem stamps_fresh_disturbed :
    ∃ (p : Probe) (h : Driving (Switch Simulator)),
      Probe.ofArchitecture smallArch = .ok p ∧ smallStart = some h ∧
      let events := disturbed h.driver.dram0
      let used := stamps events ⟨p, h.remote⟩
      used = [1, 2, 3] ∧ (run events ⟨p, h.remote⟩).probe.generation = 3 ∧
        ((used.drop 1).take 32767).Nodup ∧
        (p.inGeneration 1).pattern = (p.inGeneration 32768).pattern ∧
        (p.inGeneration 1).pattern ≠ (p.inGeneration 32767).pattern := by
  obtain ⟨h, hs⟩ := exists_smallStart
  obtain ⟨p, hp⟩ : ∃ p, Probe.ofArchitecture smallArch = .ok p := ⟨_, rfl⟩
  have hused : ∀ h ∈ smallStart, ∀ p ∈ (Probe.ofArchitecture smallArch).toOption,
      stamps (disturbed h.driver.dram0) ⟨p, h.remote⟩ = [1, 2, 3] := by decide +kernel
  have hused := hused h hs p (by rw [hp]; rfl)
  obtain ⟨-, ⟨_, hprobe⟩, -, hdistinct, hrows⟩ :=
    stamps_fresh hp h.remote (disturbed h.driver.dram0)
  have hsame := fun g => (hrows 1 (by decide)).2.2 g
  refine ⟨p, h, hp, hs, hused, ?_, hdistinct 1 32767 (by decide), ?_, ?_⟩
  · rw [hprobe, hused]
    rfl
  · exact (hsame 32768 (by decide) (by decide) (by decide)).mpr (by decide)
  · intro heq
    have hmod := (hsame 32767 (by decide) (by decide) (by decide)).mp heq
    exact absurd hmod (by decide)

end Small

/-- The pattern of rows without scalars is that of every generation, and rows that are larger than
any memory have none. -/
theorem patterns_of_unusable_rows :
    (∃ p, Probe.ofArchitecture { Architecture.pynqZ1 with arraySize := 0 } = .ok p ∧
      (p.inGeneration 1).pattern = (p.inGeneration 2).pattern ∧ ¬ 1 ≡ 2 [ZMOD p.maxRaw]) ∧
    ∃ p, Probe.ofArchitecture { Architecture.pynqZ1 with arraySize := 0x2000000000000000 } = .ok p ∧
      ∀ g, (p.inGeneration g).pattern = .error .tooLarge := by
  have hlarge : ¬ (0x2000000000000000 : UInt64).toNat < scalarLimit := by decide
  exact ⟨⟨_, rfl, rfl, by decide⟩, _, rfl, fun g => Probe.pattern_eq_error hlarge⟩

end Probing

end TensorUnit.Host
