import TensorUnit.Action

namespace TensorUnit

variable {σ ε δ α β : Type}

instance decidableEqExcept [DecidableEq ε] [DecidableEq α] : DecidableEq (Except ε α)
  | .ok _, .ok _ => decidable_of_iff (_ = _) ⟨congrArg Except.ok, Except.ok.inj⟩
  | .error _, .error _ => decidable_of_iff (_ = _) ⟨congrArg Except.error, Except.error.inj⟩
  | .ok _, .error _ | .error _, .ok _ => isFalse nofun

theorem exists_of_bind_ok {x : Except ε α} {f : α → Except ε β} {b : β} (h : x >>= f = .ok b) :
    ∃ a, x = .ok a ∧ f a = .ok b := by
  cases x with
  | error e => cases h
  | ok a => exact ⟨a, rfl, h⟩

theorem exists_bind_ok {x : Except ε α} {f : α → Except ε β} {a : α} (hx : x = .ok a)
    (h : ∃ b, f a = .ok b) : ∃ b, x >>= f = .ok b := by
  subst hx
  exact h

theorem mapM_eq_ok_iff {f : α → Except ε β} {xs : List α} {ys : List β} :
    xs.mapM f = .ok ys ↔ xs.map f = ys.map .ok := by
  induction xs generalizing ys with
  | nil => cases ys <;> simp [pure, Except.pure]
  | cons x xs ih =>
    rw [List.mapM_cons, List.map_cons]
    constructor
    · intro h
      obtain ⟨y, hy, h⟩ := exists_of_bind_ok h
      obtain ⟨zs, hz, h⟩ := exists_of_bind_ok h
      cases h
      rw [List.map_cons, hy, ih.mp hz]
    · intro h
      cases ys with
      | nil => cases h
      | cons y ys =>
        rw [List.map_cons, List.cons.injEq] at h
        rw [h.1, ih.mpr h.2]
        rfl

theorem length_mapM {f : α → Except ε β} {xs : List α} {ys : List β} (h : xs.mapM f = .ok ys) :
    ys.length = xs.length := by
  have hl := congrArg List.length (mapM_eq_ok_iff.mp h)
  rwa [List.length_map, List.length_map, eq_comm] at hl

theorem exists_mapM_iff {f : α → Except ε β} {xs : List α} :
    (∃ ys, xs.mapM f = .ok ys) ↔ ∀ x ∈ xs, ∃ y, f x = .ok y := by
  constructor
  · rintro ⟨ys, h⟩ x hx
    have hm := List.mem_map_of_mem (f := f) hx
    rw [mapM_eq_ok_iff.mp h] at hm
    obtain ⟨y, _, hy⟩ := List.mem_map.mp hm
    exact ⟨y, hy.symm⟩
  · intro h
    induction xs with
    | nil => exact ⟨[], rfl⟩
    | cons x xs ih =>
      obtain ⟨y, hy⟩ := h x (List.mem_cons_self ..)
      obtain ⟨ys, hys⟩ := ih fun x hx => h x (List.mem_cons_of_mem _ hx)
      refine ⟨y :: ys, ?_⟩
      rw [List.mapM_cons, hy, hys]
      rfl

namespace Action

/-- From a state in `P` the action succeeds into `Q` or fails into `E`. -/
def Triple (P : σ → Prop) (a : Action σ ε α) (Q : α → σ → Prop) (E : σ → Prop) : Prop :=
  ∀ s, P s → match a.run s with
    | (.ok x, t) => Q x t
    | (.error _, t) => E t

/-- The action keeps to a set of states, whether it succeeds or not. -/
def Keeps (P : σ → Prop) (a : Action σ ε α) : Prop :=
  Triple P a (fun _ => P) P

section Rules

variable {P P' : σ → Prop} {E E' : σ → Prop} {Q Q' : α → σ → Prop} {R : β → σ → Prop}
variable {a : Action σ ε α} {f : α → Action σ ε β}

theorem Triple.ok (h : Triple P a Q E) {s t : σ} {x : α} (hp : P s) (hr : a.run s = (.ok x, t)) :
    Q x t := by
  have hs := h s hp
  rw [hr] at hs
  exact hs

theorem Triple.error (h : Triple P a Q E) {s t : σ} {e : ε} (hp : P s)
    (hr : a.run s = (.error e, t)) : E t := by
  have hs := h s hp
  rw [hr] at hs
  exact hs

theorem Triple.succeeds (h : Triple P a Q fun _ => False) {s : σ} (hp : P s) :
    ∃ x t, a.run s = (.ok x, t) ∧ Q x t := by
  cases hr : a.run s with
  | mk r t =>
    cases r with
    | ok x => exact ⟨x, t, rfl, h.ok hp hr⟩
    | error e => exact (h.error hp hr).elim

theorem Triple.of_run
    (hok : ∀ s x t, P s → a.run s = (.ok x, t) → Q x t)
    (herr : ∀ s e t, P s → a.run s = (.error e, t) → E t) : Triple P a Q E := by
  intro s hp
  split
  · exact hok s _ _ hp ‹_›
  · exact herr s _ _ hp ‹_›

theorem Triple.top : Triple P a (fun _ _ => True) fun _ => True :=
  .of_run (fun _ _ _ _ _ => trivial) fun _ _ _ _ _ => trivial

theorem Triple.state {Q : σ → Prop} (h : Triple P a (fun _ => Q) Q) {s : σ} (hp : P s) :
    Q (a.run s).2 := by
  have hs := h s hp
  split at hs <;> simp_all

theorem Keeps.state (h : Keeps P a) {s : σ} (hp : P s) : P (a.run s).2 :=
  Triple.state h hp

theorem Triple.weaken (h : Triple P a Q E) (hp : ∀ s, P' s → P s) (hq : ∀ x s, Q x s → Q' x s)
    (he : ∀ s, E s → E' s) : Triple P' a Q' E' :=
  .of_run (fun _ _ _ hs hr => hq _ _ (h.ok (hp _ hs) hr))
    (fun _ _ _ hs hr => he _ (h.error (hp _ hs) hr))

theorem Triple.strengthen (h : Triple P a Q E) (hp : ∀ s, P' s → P s) : Triple P' a Q E :=
  h.weaken hp (fun _ _ => id) fun _ => id

theorem Triple.relax (h : Triple P a Q E) (hq : ∀ x s, Q x s → Q' x s) : Triple P a Q' E :=
  h.weaken (fun _ => id) hq fun _ => id

theorem Triple.and (h : Triple P a Q E) (h' : Triple P' a Q' E') :
    Triple (fun s => P s ∧ P' s) a (fun x s => Q x s ∧ Q' x s) fun s => E s ∧ E' s :=
  .of_run (fun _ _ _ hs hr => ⟨h.ok hs.1 hr, h'.ok hs.2 hr⟩)
    (fun _ _ _ hs hr => ⟨h.error hs.1 hr, h'.error hs.2 hr⟩)

theorem Triple.assume {p : Prop} (h : p → Triple P a Q E) : Triple (fun s => p ∧ P s) a Q E :=
  fun s hs => h hs.1 s hs.2

theorem Triple.exists {ι : Type} {P : ι → σ → Prop} (h : ∀ i, Triple (P i) a Q E) :
    Triple (fun s => ∃ i, P i s) a Q E :=
  fun s ⟨i, hs⟩ => h i s hs

theorem Triple.pure {x : α} (h : ∀ s, P s → Q x s) :
    Triple P (Pure.pure x : Action σ ε α) Q E :=
  h

theorem Triple.fail {e : ε} (h : ∀ s, P s → E s) : Triple P (fail e : Action σ ε α) Q E :=
  h

theorem exists_of_bind_run {s t : σ} {y : β} (h : (a >>= f).run s = (.ok y, t)) :
    ∃ x u, a.run s = (.ok x, u) ∧ (f x).run u = (.ok y, t) := by
  rw [bind_run] at h
  cases hr : a.run s with
  | mk r u =>
    rw [hr] at h
    cases r with
    | ok x => exact ⟨x, u, rfl, h⟩
    | error e => cases h

theorem mapError_bind_run (a : Action σ ε α) (g : ε → δ) (f : α → Action σ δ β) (s : σ) :
    (a.mapError g >>= f).run s =
      match a.run s with
      | (.ok x, t) => (f x).run t
      | (.error e, t) => (.error (g e), t) := by
  rw [bind_run, mapError_run]
  rcases a.run s with ⟨_ | _, _⟩ <;> rfl

theorem Triple.bind (h : Triple P a Q E) (hf : ∀ x, Triple (Q x) (f x) R E) :
    Triple P (a >>= f) R E := by
  intro s hp
  rw [bind_run]
  have hs := h s hp
  cases hr : a.run s with
  | mk r t =>
    rw [hr] at hs
    cases r with
    | ok x => exact hf x t hs
    | error e => exact hs

theorem Triple.view {g : σ → α} (h : ∀ s, P s → Q (g s) s) :
    Triple P (view g : Action σ ε α) Q E :=
  h

theorem Triple.viewed {g : σ → α} (h : ∀ x, Triple P (f x) R E) :
    Triple P (Action.view g >>= f) R E :=
  fun s hs => h (g s) s hs

theorem Triple.update {g : σ → σ} {Q : Unit → σ → Prop} (h : ∀ s, P s → Q () (g s)) :
    Triple P (update g : Action σ ε Unit) Q E :=
  h

theorem Triple.ofExcept {r : Except ε α} (h : ∀ x s, r = .ok x → P s → Q x s)
    (he : ∀ s, P s → E s) : Triple P (ofExcept r) Q E := by
  intro s hp
  rw [ofExcept_run]
  cases r with
  | ok x => exact h x s rfl hp
  | error e => exact he s hp

theorem Triple.require {p : Prop} [Decidable p] {e : ε} {Q : Unit → σ → Prop}
    (h : ∀ s, p → P s → Q () s) (he : ∀ s, ¬ p → P s → E s) : Triple P (require p e) Q E := by
  intro s hp
  rw [require_run]
  by_cases hq : p
  · rw [if_pos hq]
    exact h s hq hp
  · rw [if_neg hq]
    exact he s hq hp

theorem Triple.mapError {g : ε → δ} (h : Triple P a Q E) : Triple P (a.mapError g) Q E := by
  intro s hp
  rw [mapError_run]
  have hs := h s hp
  cases hr : a.run s with
  | mk r t =>
    rw [hr] at hs
    cases r <;> exact hs

theorem Triple.attempt {F : σ → Prop} (h : Triple P a Q E) :
    Triple P (a.attempt : Action σ δ (Except ε α))
      (fun r s => (∀ x, r = .ok x → Q x s) ∧ ∀ e, r = .error e → E s) F := by
  intro s hp
  rw [attempt_run]
  have hs := h s hp
  cases hr : a.run s with
  | mk r t =>
    rw [hr] at hs
    cases r with
    | ok x => exact ⟨fun _ hx => Except.ok.inj hx ▸ hs, fun _ hx => (nomatch hx)⟩
    | error e => exact ⟨fun _ hx => (nomatch hx), fun _ _ => hs⟩

theorem Keeps.pure {x : α} : Keeps P (Pure.pure x : Action σ ε α) :=
  fun _ h => h

theorem Keeps.fail {e : ε} : Keeps P (fail e : Action σ ε α) :=
  fun _ h => h

theorem Keeps.view {g : σ → α} : Keeps P (view g : Action σ ε α) :=
  fun _ h => h

theorem Keeps.ofExcept {r : Except ε α} : Keeps P (ofExcept r) :=
  Triple.ofExcept (fun _ _ _ h => h) fun _ h => h

theorem Keeps.require {p : Prop} [Decidable p] {e : ε} : Keeps P (require p e) :=
  Triple.require (fun _ _ h => h) fun _ _ h => h

theorem Keeps.update {g : σ → σ} (h : ∀ s, P s → P (g s)) :
    Keeps P (update g : Action σ ε Unit) :=
  h

theorem Keeps.bind (h : Keeps P a) (hf : ∀ x, Keeps P (f x)) : Keeps P (a >>= f) :=
  Triple.bind h hf

theorem Triple.tried {Q F : σ → Prop} (h : Triple P a (fun _ => Q) Q) :
    Triple P (a.attempt : Action σ δ (Except ε α)) (fun _ => Q) F := by
  apply (Triple.attempt h).relax
  intro r s hs
  cases r with
  | ok x => exact hs.1 x rfl
  | error e => exact hs.2 e rfl

theorem Keeps.attempt (h : Keeps P a) : Keeps P (a.attempt : Action σ δ (Except ε α)) :=
  Triple.tried h

end Rules

section Unless

/-- From a state in `P` the action ends in `Q`, unless it fails in one of certain ways. -/
def Ends (P Q : σ → Prop) (E : ε → σ → Prop) (a : Action σ ε α) : Prop :=
  ∀ s, P s → Q (a.run s).2 ∨ ∃ e, (a.run s).1 = .error e ∧ E e (a.run s).2

def KeepsOr (P : σ → Prop) (E : ε → σ → Prop) (a : Action σ ε α) : Prop :=
  Ends P P E a

variable {P Q : σ → Prop} {E : ε → σ → Prop} {a : Action σ ε α} {f : α → Action σ ε β}

theorem Keeps.or (h : Keeps P a) : KeepsOr P E a :=
  fun _ hs => .inl (h.state hs)

theorem Triple.ends {F : σ → Prop} (h : Triple P a (fun _ => Q) fun s => Q s ∨ F s) :
    Ends P Q (fun _ => F) a := by
  intro s hs
  cases hr : a.run s with
  | mk r t =>
    cases r with
    | ok x => exact .inl (h.ok hs hr)
    | error e => exact (h.error hs hr).imp id fun hf => ⟨e, rfl, hf⟩

theorem KeepsOr.keeps (h : KeepsOr P (fun _ _ => False) a) : Keeps P a :=
  .of_run
    (fun s _ t hs hr => by
      rcases h s hs with hp | ⟨_, _, hf⟩
      · rwa [hr] at hp
      · exact hf.elim)
    (fun s _ t hs hr => by
      rcases h s hs with hp | ⟨_, _, hf⟩
      · rwa [hr] at hp
      · exact hf.elim)

theorem Ends.bind {R : σ → Prop} (h : Ends P Q E a) (hQ : ∀ s, Q s → R s)
    (hf : ∀ x, Ends Q R E (f x)) : Ends P R E (a >>= f) := by
  intro s hs
  have ha := h s hs
  rw [bind_run]
  cases hr : a.run s with
  | mk r t =>
    rw [hr] at ha
    cases r with
    | ok x =>
      rcases ha with hp | ⟨_, he, _⟩
      · exact hf x t hp
      · cases he
    | error e =>
      refine ha.imp (hQ t) ?_
      rintro ⟨_, he, hE⟩
      cases he
      exact ⟨e, rfl, hE⟩

theorem KeepsOr.bind (h : KeepsOr P E a) (hf : ∀ x, KeepsOr P E (f x)) :
    KeepsOr P E (a >>= f) :=
  Ends.bind h (fun _ h => h) hf

theorem bind_pure_run (g : α → β) (s : σ) :
    ((a >>= fun x => Pure.pure (g x)).run s).2 = (a.run s).2 := by
  rw [bind_run]
  rcases a.run s with ⟨_ | _, t⟩ <;> rfl

theorem KeepsOr.discard_iff : KeepsOr P E (a >>= fun _ => Pure.pure ()) ↔ KeepsOr P E a := by
  have herr : ∀ s e, ((a >>= fun _ => Pure.pure ()).run s).1 = .error e ↔
      (a.run s).1 = .error e := by
    intro s e
    rw [bind_run]
    rcases a.run s with ⟨_ | _, t⟩ <;> simp
  refine forall_congr' fun s => ?_
  simp only [bind_pure_run, herr]

theorem KeepsOr.view {g : σ → α} (h : ∀ s, P s → KeepsOr P E (f (g s))) :
    KeepsOr P E (Action.view g >>= f) :=
  fun s hs => h s hs s hs

theorem KeepsOr.check {r : Except ε α} (h : ∀ x, r = .ok x → KeepsOr P E (f x)) :
    KeepsOr P E (Action.ofExcept r >>= f) := by
  cases r with
  | ok x => exact h x rfl
  | error e => exact fun _ hs => .inl hs

theorem KeepsOr.require {p : Prop} [Decidable p] {e : ε} {f : Unit → Action σ ε β}
    (h : p → KeepsOr P E (f ())) : KeepsOr P E (Action.require p e >>= f) := by
  unfold Action.require
  split
  · exact h ‹_›
  · exact fun _ hs => .inl hs

end Unless

section Raises

/-- From a state in `P` the action fails in certain ways only. -/
def Raises (P : σ → Prop) (E : ε → σ → Prop) (a : Action σ ε α) : Prop :=
  ∀ s e t, P s → a.run s = (.error e, t) → E e t

variable {δ : Type} {P F : σ → Prop} {E : ε → σ → Prop} {Q : α → σ → Prop} {a : Action σ ε α}
  {f : α → Action σ ε β}

theorem Raises.pure {x : α} : Raises P E (Pure.pure x : Action σ ε α) :=
  fun _ _ _ _ h => nomatch h

theorem Raises.weaken {P' : σ → Prop} {E' : ε → σ → Prop} (h : Raises P E a)
    (hp : ∀ s, P' s → P s) (he : ∀ e s, E e s → E' e s) : Raises P' E' a :=
  fun s e t hs hr => he e t (h s e t (hp s hs) hr)

theorem Raises.fail {e : ε} (h : ∀ s, P s → E e s) : Raises P E (fail e : Action σ ε α) := by
  intro s e' t hs hr
  cases hr
  exact h s hs

theorem Raises.update {g : σ → σ} : Raises P E (update g : Action σ ε Unit) :=
  fun _ _ _ _ h => nomatch h

theorem Raises.mapError {E' : δ → σ → Prop} {g : ε → δ} (h : Raises P E a)
    (hg : ∀ e s, E e s → E' (g e) s) : Raises P E' (a.mapError g) := by
  intro s e t hs hr
  rw [mapError_run] at hr
  cases ha : a.run s with
  | mk r u =>
    rw [ha] at hr
    cases r with
    | ok x => cases hr
    | error e' =>
      cases hr
      exact hg _ _ (h s e' u hs ha)

theorem Raises.bind (h : Triple P a Q F) (ha : Raises P E a) (hf : ∀ x, Raises (Q x) E (f x)) :
    Raises P E (a >>= f) := by
  intro s e t hs hr
  rw [bind_run] at hr
  cases hrun : a.run s with
  | mk r u =>
    rw [hrun] at hr
    cases r with
    | ok x => exact hf x u e t (h.ok hs hrun) hr
    | error e' =>
      cases hr
      exact ha s e t hs hrun

theorem Raises.next (ha : Raises P E a) (hf : ∀ x, Raises (fun _ => True) E (f x)) :
    Raises P E (a >>= f) :=
  Raises.bind Triple.top ha hf

theorem Raises.attempt {D : ε → Prop} {E : δ → σ → Prop} {f : Except ε α → Action σ δ β}
    (h : Raises P (fun e _ => D e) a)
    (hf : ∀ r, (∀ e, r = .error e → D e) → Raises (fun _ => True) E (f r)) :
    Raises P E (a.attempt >>= f) := by
  intro s e t hs hr
  rw [bind_run, attempt_run] at hr
  exact hf _ (fun e he => h s e _ hs (Prod.ext he rfl)) _ e t trivial hr

theorem Raises.view {g : σ → α} (h : ∀ s, P s → Raises P E (f (g s))) :
    Raises P E (Action.view g >>= f) :=
  fun s e t hs => h s hs s e t hs

theorem Raises.ofExcept {r : Except ε α} (h : ∀ e s, r = .error e → P s → E e s) :
    Raises P E (Action.ofExcept r) := by
  intro s e t hs hr
  rw [ofExcept_run] at hr
  cases hr
  exact h e s rfl hs

theorem Raises.require {p : Prop} [Decidable p] {e : ε} (h : ∀ s, P s → E e s) :
    Raises P E (Action.require p e) := by
  intro s e' t hs hr
  rw [require_run] at hr
  split at hr
  · cases hr
  · cases hr
    exact h s hs

/-- An action that leaves a set of states comes back to it, unless its first part fails. -/
theorem KeepsOr.of_detour (h : Triple P a Q F) (ha : Raises P (fun e s => P s ∨ E e s) a)
    (hf : ∀ x, Triple (Q x) (f x) (fun _ => P) P) : KeepsOr P E (a >>= f) := by
  intro s hs
  rw [bind_run]
  cases hr : a.run s with
  | mk r t =>
    cases r with
    | ok x => exact .inl ((hf x).state (h.ok hs hr))
    | error e => exact (ha s e t hs hr).imp id fun he => ⟨e, rfl, he⟩

end Raises

section Outcome

structure Outcome (P : σ → Prop) (a : Action σ ε α) (Q : α → σ → Prop) (E : ε → σ → Prop) :
    Prop where
  success : Triple P a Q fun _ => True
  failure : Raises P E a

def Confined (P : σ → Prop) (C : ε → Prop) (a : Action σ ε α) : Prop :=
  Outcome P a (fun _ => P) fun e s => C e ∧ P s

variable {P : σ → Prop} {E : ε → σ → Prop} {Q : α → σ → Prop} {R : β → σ → Prop} {C : ε → Prop}
  {a : Action σ ε α} {f : α → Action σ ε β}

theorem Outcome.bind (ha : Outcome P a Q E) (hf : ∀ x, Outcome (Q x) (f x) R E) :
    Outcome P (a >>= f) R E :=
  ⟨ha.success.bind fun x => (hf x).success,
    Raises.bind ha.success ha.failure fun x => (hf x).failure⟩

theorem Outcome.weaken {P' : σ → Prop} {Q' : α → σ → Prop} {E' : ε → σ → Prop}
    (h : Outcome P a Q E) (hp : ∀ s, P' s → P s) (hq : ∀ x s, Q x s → Q' x s)
    (he : ∀ e s, E e s → E' e s) : Outcome P' a Q' E' :=
  ⟨h.success.weaken hp hq fun _ h => h, h.failure.weaken hp he⟩

theorem Outcome.of_triple {F : σ → Prop} (h : Triple P a Q F) (hF : ∀ e s, F s → E e s) :
    Outcome P a Q E :=
  ⟨h.weaken (fun _ h => h) (fun _ _ h => h) fun _ _ => trivial,
    fun _ e _ hs hr => hF e _ (h.error hs hr)⟩

theorem Confined.bind (ha : Confined P C a) (hf : ∀ x, Confined P C (f x)) :
    Confined P C (a >>= f) :=
  Outcome.bind ha hf

theorem Confined.keeps (h : Confined P C a) : Keeps P a :=
  .of_run (fun _ _ _ hs hr => h.success.ok hs hr) fun s e t hs hr => (h.failure s e t hs hr).2

theorem Confined.mono {D : ε → Prop} (h : Confined P C a) (hD : ∀ e, C e → D e) :
    Confined P D a :=
  Outcome.weaken h (fun _ h => h) (fun _ _ h => h) fun e _ he => ⟨hD e he.1, he.2⟩

theorem confined_iff :
    Confined P C a ↔ ∀ s, P s → (∀ e, (a.run s).1 = .error e → C e) ∧ P (a.run s).2 := by
  constructor
  · intro h s hs
    refine ⟨fun e he => (h.failure s e _ hs (Prod.ext he rfl)).1, ?_⟩
    cases hr : a.run s with
    | mk r t =>
      cases r with
      | ok x => exact h.success.ok hs hr
      | error e => exact (h.failure s e t hs hr).2
  · intro h
    refine ⟨.of_run (fun s x t hs hr => ?_) fun _ _ _ _ _ => trivial, fun s e t hs hr => ?_⟩
    · have hk := (h s hs).2
      rwa [hr] at hk
    · have hk := h s hs
      rw [hr] at hk
      exact ⟨hk.1 e rfl, hk.2⟩

theorem Confined.of_raises (h : Keeps P a) (hr : Raises P (fun e _ => C e) a) : Confined P C a :=
  ⟨h.weaken (fun _ h => h) (fun _ _ h => h) fun _ _ => trivial,
    fun s e t hs ht => ⟨hr s e t hs ht, h.error hs ht⟩⟩

theorem Keeps.confined (h : Keeps P a) (hC : ∀ e, C e) : Confined P C a :=
  Outcome.of_triple h fun e _ hs => ⟨hC e, hs⟩

theorem Confined.pure {x : α} : Confined P C (Pure.pure x : Action σ ε α) :=
  ⟨Triple.pure fun _ h => h, Raises.pure⟩

theorem Confined.fail {e : ε} (h : C e) : Confined P C (fail e : Action σ ε α) :=
  ⟨Triple.fail fun _ _ => trivial, Raises.fail fun _ hs => ⟨h, hs⟩⟩

theorem Confined.view {g : σ → α} (h : ∀ s, P s → Confined P C (f (g s))) :
    Confined P C (Action.view g >>= f) :=
  ⟨fun s hs => (h s hs).success s hs, Raises.view fun s hs => (h s hs).failure⟩

theorem Confined.update {g : σ → σ} (h : ∀ s, P s → P (g s)) :
    Confined P C (update g : Action σ ε Unit) :=
  ⟨Triple.update h, Raises.update⟩

theorem Confined.checked {r : Except ε α} {x : α} (h : r = .ok x) (hf : Confined P C (f x)) :
    Confined P C (Action.ofExcept r >>= f) := by
  subst h
  exact hf

theorem Confined.ofExcept {r : Except ε α} (h : ∀ e, r = .error e → C e) :
    Confined P C (Action.ofExcept r) :=
  ⟨Triple.ofExcept (fun _ _ _ h => h) fun _ _ => trivial,
    Raises.ofExcept fun e _ he hs => ⟨h e he, hs⟩⟩

theorem Confined.require {p : Prop} [Decidable p] {e : ε} (h : ¬ p → C e) :
    Confined P C (Action.require p e) := by
  unfold Action.require
  split
  · exact Confined.pure
  · exact Confined.fail (h ‹_›)

theorem Confined.guard {p : Prop} [Decidable p] {e : ε} {f : Unit → Action σ ε β}
    (hn : ¬ p → C e) (h : p → Confined P C (f ())) :
    Confined P C (Action.require p e >>= f) := by
  unfold Action.require
  split
  · exact h ‹_›
  · rename_i hp
    refine confined_iff.mpr fun s hs => ⟨fun e' he => ?_, hs⟩
    rw [← Except.error.inj he]
    exact hn hp

theorem Confined.mapError {D : δ → Prop} {g : ε → δ} (h : Confined P C a)
    (hg : ∀ e, C e → D (g e)) : Confined P D (a.mapError g) :=
  ⟨Triple.mapError h.success, Raises.mapError h.failure fun e _ he => ⟨hg e he.1, he.2⟩⟩

theorem Confined.attempt {D : δ → Prop} {f : Except ε α → Action σ δ β} (h : Confined P C a)
    (hf : ∀ r, (∀ e, r = .error e → C e) → Confined P D (f r)) :
    Confined P D (a.attempt >>= f) := by
  have hr := confined_iff.mp h
  exact ⟨fun s hs => (hf _ (hr s hs).1).success _ (hr s hs).2,
    fun s e t hs ht => (hf _ (hr s hs).1).failure _ e t (hr s hs).2 ht⟩

end Outcome

section Alike

/-- From related states the action gives the same, and it leaves related states. -/
def Alike (R : σ → σ → Prop) (a : Action σ ε α) : Prop :=
  ∀ s t, R s t → (a.run s).1 = (a.run t).1 ∧ R (a.run s).2 (a.run t).2

variable {R : σ → σ → Prop}

theorem Alike.pure {x : α} : Alike R (Pure.pure x : Action σ ε α) :=
  fun _ _ h => ⟨rfl, h⟩

theorem Alike.fail {e : ε} : Alike R (fail e : Action σ ε α) :=
  fun _ _ h => ⟨rfl, h⟩

theorem Alike.bind {a : Action σ ε α} {f : α → Action σ ε β} (ha : Alike R a)
    (hf : ∀ x, Alike R (f x)) : Alike R (a >>= f) := by
  intro s t h
  obtain ⟨he, hr⟩ := ha s t h
  rw [bind_run, bind_run]
  cases hs : a.run s with
  | mk r s' =>
    cases ht : a.run t with
    | mk r' t' =>
      rw [hs, ht] at he hr
      obtain rfl : r = r' := he
      cases r with
      | ok x => exact hf x s' t' hr
      | error e => exact ⟨rfl, hr⟩

theorem Alike.require {p : Prop} [Decidable p] {e : ε} :
    Alike R (require p e : Action σ ε Unit) := by
  unfold Action.require
  split
  · exact Alike.pure
  · exact Alike.fail

/-- Two views of related states may differ in what does not matter for all that follows. -/
theorem Alike.view {g : σ → α} {f : α → Action σ ε β} (h : ∀ s t, R s t → f (g s) = f (g t))
    (hf : ∀ x, Alike R (f x)) : Alike R (Action.view g >>= f) := by
  intro s t hr
  have hs := hf (g s) s t hr
  rw [bind_run, bind_run, view_run, view_run]
  simp only
  rw [← h s t hr]
  exact hs

end Alike

end Action

end TensorUnit
