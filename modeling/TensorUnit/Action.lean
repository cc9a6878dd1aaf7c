namespace TensorUnit

/-- An action on a state. One that fails leaves a state too: what it did before it failed stays
done. -/
def Action (σ ε α : Type) : Type :=
  σ → Except ε α × σ

namespace Action

variable {σ τ ε δ α β : Type}

@[inline] def run (a : Action σ ε α) (s : σ) : Except ε α × σ :=
  a s

@[inline] instance : Monad (Action σ ε) where
  pure x := fun s => (.ok x, s)
  bind a f := fun s =>
    match a s with
    | (.ok x, s) => f x s
    | (.error e, s) => (.error e, s)

@[inline] def fail (e : ε) : Action σ ε α :=
  fun s => (.error e, s)

@[inline] def ofExcept (r : Except ε α) : Action σ ε α :=
  fun s => (r, s)

@[inline] def view (f : σ → α) : Action σ ε α :=
  fun s => (.ok (f s), s)

@[inline] def update (f : σ → σ) : Action σ ε Unit :=
  fun s => (.ok (), f s)

@[inline] def mapError (f : ε → δ) (a : Action σ ε α) : Action σ δ α :=
  fun s =>
    match a s with
    | (.ok x, s) => (.ok x, s)
    | (.error e, s) => (.error (f e), s)

/-- Goes on after a failure too, with the outcome in hand. -/
@[inline] def attempt (a : Action σ ε α) : Action σ δ (Except ε α) :=
  fun s =>
    match a s with
    | (r, s) => (.ok r, s)

@[inline] def require (p : Prop) [Decidable p] (e : ε) : Action σ ε Unit :=
  if p then pure () else fail e

@[simp] theorem pure_run (x : α) (s : σ) : (pure x : Action σ ε α).run s = (.ok x, s) := rfl

@[simp] theorem fail_run (e : ε) (s : σ) : (fail e : Action σ ε α).run s = (.error e, s) := rfl

@[simp] theorem ofExcept_run (r : Except ε α) (s : σ) :
    (ofExcept r : Action σ ε α).run s = (r, s) := rfl

@[simp] theorem view_run (f : σ → α) (s : σ) :
    (view f : Action σ ε α).run s = (.ok (f s), s) := rfl

@[simp] theorem update_run (f : σ → σ) (s : σ) :
    (update f : Action σ ε Unit).run s = (.ok (), f s) := rfl

theorem bind_run (a : Action σ ε α) (f : α → Action σ ε β) (s : σ) :
    (a >>= f).run s = match a.run s with
      | (.ok x, s) => (f x).run s
      | (.error e, s) => (.error e, s) := rfl

theorem mapError_run (f : ε → δ) (a : Action σ ε α) (s : σ) :
    (a.mapError f).run s = ((a.run s).1.mapError f, (a.run s).2) := by
  simp only [mapError, run]
  rcases a s with ⟨_ | _, _⟩ <;> rfl

theorem attempt_run (a : Action σ ε α) (s : σ) :
    (a.attempt : Action σ δ _).run s = (.ok (a.run s).1, (a.run s).2) := rfl

theorem require_run (p : Prop) [Decidable p] (e : ε) (s : σ) :
    (require p e : Action σ ε Unit).run s = (if p then .ok () else .error e, s) := by
  unfold require
  split <;> rfl

instance : LawfulMonad (Action σ ε) :=
  LawfulMonad.mk' (Action σ ε)
    (fun a => by
      funext s
      show (match a s with
        | (.ok x, s) => (.ok x, s)
        | (.error e, s) => (.error e, s)) = a s
      rcases a s with ⟨_ | _, _⟩ <;> rfl)
    (fun _ _ => rfl)
    (fun a f g => by
      funext s
      simp only [bind]
      rcases a s with ⟨_ | _, _⟩ <;> rfl)

end Action

end TensorUnit
