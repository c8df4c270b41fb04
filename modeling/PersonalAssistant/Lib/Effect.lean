import Mathlib.Data.List.Basic

/-!
# State with exceptions

`Op σ ε α` reads and writes a state `σ` and returns a value or raises. A raise keeps the writes made
before it: nothing is undone unless an enclosing operation restores the state itself. This is the
meaning of method bodies over mutable fields; atomicity is something to prove, not part of the monad.

`Except` computations are embedded without touching the state, and `zoom` runs an operation on one
component of a larger state.
-/
namespace Lib

/-- A sequence of fallible steps succeeds exactly when both do. -/
theorem except_bind_eq_ok {ε α β : Type} {x : Except ε α} {f : α → Except ε β} {b : β} :
    (x >>= f) = .ok b ↔ ∃ a, x = .ok a ∧ f a = .ok b := by
  cases x with
  | error e => simp [bind, Except.bind]
  | ok a => simp [bind, Except.bind]

@[simp] theorem except_ok_bind {ε α β : Type} (a : α) (f : α → Except ε β) :
    (Except.ok a >>= f) = f a := rfl

@[simp] theorem except_error_bind {ε α β : Type} (e : ε) (f : α → Except ε β) :
    (Except.error e >>= f) = .error e := rfl

/-- A stateful computation whose exceptions keep the state reached when they were raised. -/
def Op (σ ε α : Type) := σ → Except ε α × σ

namespace Op

variable {σ τ ε α β : Type}

protected def pure (a : α) : Op σ ε α := fun s => (.ok a, s)

protected def bind (x : Op σ ε α) (f : α → Op σ ε β) : Op σ ε β := fun s =>
  match x s with
  | (.ok a, t) => f a t
  | (.error e, t) => (.error e, t)

instance : Monad (Op σ ε) where
  pure := Op.pure
  bind := Op.bind

def raise (e : ε) : Op σ ε α := fun s => (.error e, s)
def get : Op σ ε σ := fun s => (.ok s, s)
def modify (f : σ → σ) : Op σ ε Unit := fun s => (.ok (), f s)
def ofExcept (x : Except ε α) : Op σ ε α := fun s => (x, s)

/-- `try: x except e: h e`. The handler sees the state the exception left. -/
def handle (x : Op σ ε α) (h : ε → Op σ ε α) : Op σ ε α := fun s =>
  match x s with
  | (.ok a, t) => (.ok a, t)
  | (.error e, t) => h e t

/-- Run an operation on a component of the state. -/
def zoom (proj : τ → σ) (put : τ → σ → τ) (x : Op σ ε α) : Op τ ε α := fun t =>
  ((x (proj t)).1, put t (x (proj t)).2)

@[simp] theorem pure_apply (a : α) (s : σ) : (pure a : Op σ ε α) s = (.ok a, s) := rfl

theorem bind_apply (x : Op σ ε α) (f : α → Op σ ε β) (s : σ) :
    (x >>= f) s = match x s with
      | (.ok a, t) => f a t
      | (.error e, t) => (.error e, t) := rfl

theorem bind_ok {x : Op σ ε α} {f : α → Op σ ε β} {s t : σ} {a : α} (h : x s = (.ok a, t)) :
    (x >>= f) s = f a t := by rw [bind_apply, h]

theorem bind_error {x : Op σ ε α} {f : α → Op σ ε β} {s t : σ} {e : ε}
    (h : x s = (.error e, t)) : (x >>= f) s = (.error e, t) := by rw [bind_apply, h]

@[simp] theorem raise_apply (e : ε) (s : σ) : (raise e : Op σ ε α) s = (.error e, s) := rfl

@[simp] theorem raise_bind (e : ε) (f : α → Op σ ε β) (s : σ) :
    (raise e >>= f) s = (.error e, s) := rfl

@[simp] theorem pure_bind_apply (a : α) (f : α → Op σ ε β) (s : σ) :
    ((pure a : Op σ ε α) >>= f) s = f a s := rfl

@[simp] theorem get_bind (f : σ → Op σ ε β) (s : σ) : (get >>= f) s = f s s := rfl

@[simp] theorem modify_bind (g : σ → σ) (f : Unit → Op σ ε β) (s : σ) :
    (modify g >>= f) s = f () (g s) := rfl

@[simp] theorem modify_apply (g : σ → σ) (s : σ) :
    (modify g : Op σ ε Unit) s = (.ok (), g s) := rfl

@[simp] theorem ofExcept_apply (x : Except ε α) (s : σ) :
    (ofExcept x : Op σ ε α) s = (x, s) := rfl

@[simp] theorem ofExcept_ok_bind (a : α) (f : α → Op σ ε β) (s : σ) :
    (ofExcept (.ok a) >>= f) s = f a s := rfl

@[simp] theorem ofExcept_error_bind (e : ε) (f : α → Op σ ε β) (s : σ) :
    (ofExcept (.error e) >>= f) s = (.error e, s) := rfl

@[simp] theorem zoom_apply (proj : τ → σ) (put : τ → σ → τ) (x : Op σ ε α) (t : τ) :
    zoom proj put x t = ((x (proj t)).1, put t (x (proj t)).2) := rfl

/-- Returning a value behind an operation leaves the state the operation left. -/
theorem bind_pure_snd (x : Op σ ε α) (g : α → β) (s : σ) :
    ((x >>= fun a => pure (g a)) s).2 = (x s).2 := by
  rw [bind_apply]
  rcases x s with ⟨_ | a, t⟩ <;> rfl

/-- Inversion of a successful sequence: both halves succeeded. -/
theorem bind_eq_ok {x : Op σ ε α} {f : α → Op σ ε β} {s t : σ} {b : β}
    (h : (x >>= f) s = (.ok b, t)) : ∃ a u, x s = (.ok a, u) ∧ f a u = (.ok b, t) := by
  rw [bind_apply] at h
  rcases hx : x s with ⟨_ | a, u⟩
  · simp [hx] at h
  · exact ⟨a, u, rfl, by simpa [hx] using h⟩

/-- Inversion of a sequence that starts with a check. -/
theorem ofExcept_bind_cases {x : Except ε α} {f : α → Op σ ε β} {s : σ} {o : Except ε β × σ}
    (h : (ofExcept x >>= f) s = o) :
    (∃ e, x = .error e ∧ o = (.error e, s)) ∨ ∃ a, x = .ok a ∧ f a s = o := by
  cases x with
  | error e => exact .inl ⟨e, rfl, h.symm⟩
  | ok a => exact .inr ⟨a, rfl, h⟩

/-- A sequence that starts with a check and returns has passed the check. -/
theorem ofExcept_bind_eq_ok {x : Except ε α} {f : α → Op σ ε β} {s t : σ} {b : β}
    (h : (ofExcept x >>= f) s = (.ok b, t)) : ∃ a, x = .ok a ∧ f a s = (.ok b, t) := by
  obtain ⟨e, -, he⟩ | hok := ofExcept_bind_cases h
  · cases he
  · exact hok

/-- Inversion of an operation on a component. -/
theorem zoom_cases {proj : τ → σ} {put : τ → σ → τ} {x : Op σ ε α} {t t' : τ} {r : Except ε α}
    (h : zoom proj put x t = (r, t')) : ∃ u, x (proj t) = (r, u) ∧ t' = put t u := by
  rw [zoom_apply, Prod.mk.injEq] at h
  exact ⟨(x (proj t)).2, by rw [← h.1], h.2.symm⟩

/-! ## Relating the states around an operation -/

/-- Every outcome of `x` relates the state before to the state after. -/
def Preserves (R : σ → σ → Prop) (x : Op σ ε α) : Prop := ∀ s, R s (x s).2

theorem Preserves.bind {R : σ → σ → Prop} {x : Op σ ε α} {f : α → Op σ ε β}
    (trans : ∀ {s t u}, R s t → R t u → R s u) (hx : Preserves R x)
    (hf : ∀ a, Preserves R (f a)) : Preserves R (x >>= f) := by
  intro s
  have h := hx s
  rw [bind_apply]
  rcases hx' : x s with ⟨e | a, t⟩
  · simpa [hx'] using h
  · rw [hx'] at h
    exact trans h (hf a t)

theorem Preserves.pure {R : σ → σ → Prop} (refl : ∀ s, R s s) (a : α) :
    Preserves R (Pure.pure a : Op σ ε α) := fun s => refl s

theorem Preserves.ofExcept {R : σ → σ → Prop} (refl : ∀ s, R s s) (x : Except ε α) :
    Preserves R (Op.ofExcept x : Op σ ε α) := fun s => refl s

theorem Preserves.raise {R : σ → σ → Prop} (refl : ∀ s, R s s) (e : ε) :
    Preserves R (Op.raise e : Op σ ε α) := fun s => refl s

theorem Preserves.handle {R : σ → σ → Prop} {x : Op σ ε α} {h : ε → Op σ ε α}
    (trans : ∀ {s t u}, R s t → R t u → R s u) (hx : Preserves R x)
    (hh : ∀ e, Preserves R (h e)) : Preserves R (x.handle h) := by
  intro s
  have hs := hx s
  unfold Op.handle
  rcases hx' : x s with ⟨e | a, t⟩
  · rw [hx'] at hs
    exact trans hs (hh e t)
  · simpa [hx'] using hs

/-! ## Keeping an invariant -/

/-- Every outcome of `x` keeps `P`. -/
def Keeps (P : σ → Prop) (x : Op σ ε α) : Prop := ∀ s, P s → P (x s).2

variable {P : σ → Prop} {x : Op σ ε α} {f : α → Op σ ε β}

theorem Keeps.bind (hx : Keeps P x) (hf : ∀ a, Keeps P (f a)) : Keeps P (x >>= f) := by
  intro s hs
  have h := hx s hs
  rw [bind_apply]
  rcases hx' : x s with ⟨e | a, t⟩
  · simpa [hx'] using h
  · rw [hx'] at h
    exact hf a t h

theorem Keeps.pure (a : α) : Keeps P (Pure.pure a : Op σ ε α) := fun _ h => h

theorem Keeps.raise (e : ε) : Keeps P (raise e : Op σ ε α) := fun _ h => h

theorem Keeps.ofExcept (e : Except ε α) : Keeps P (ofExcept e : Op σ ε α) := fun _ h => h

/-- What follows a check may use that the check passed. -/
theorem Keeps.check {e : Except ε α} (hf : ∀ a, e = .ok a → Keeps P (f a)) :
    Keeps P (Op.ofExcept e >>= f) := by
  intro s hs
  cases e with
  | error e => exact hs
  | ok a => exact hf a rfl s hs

/-- What follows a read is run on the state that was read. -/
theorem Keeps.get {f : σ → Op σ ε α} (hf : ∀ s, P s → P (f s s).2) : Keeps P (Op.get >>= f) := hf

theorem Keeps.modify {g : σ → σ} (h : ∀ s, P s → P (g s)) : Keeps P (modify g : Op σ ε Unit) := h

end Op

end Lib
