import Mathlib.Logic.Function.Basic
import PersonalAssistant.Lib.Runs

/-!
# Isolation

A system serves several owners, and `part t` is what a state holds for the owner `t`. An operation is
`Within` the part of an owner when it answers on that part what it answers on the whole state, and
leaves the parts of all others alone. When every call is within the part of its owner, the answers an
owner gets in a history are those it gets when nobody else calls, so they do not depend on what the
others do.

Independent systems are composed by an index; the composition isolates when every component does.
-/
namespace Lib

variable {σ ε α β τ : Type}

namespace Op

/-- `x` reads and writes nothing outside the part of `u`. -/
structure Within (part : τ → σ → σ) (u : τ) (x : Op σ ε α) : Prop where
  own : ∀ s, x (part u s) = ((x s).1, part u (x s).2)
  frame : ∀ t, t ≠ u → ∀ s, part t (x s).2 = part t s

variable {part : τ → σ → σ} {u : τ} {x : Op σ ε α} {f : α → Op σ ε β}

theorem Within.bind (hx : Within part u x) (hf : ∀ a, Within part u (f a)) :
    Within part u (x >>= f) where
  own s := by
    have h := hx.own s
    rw [bind_apply, bind_apply, h]
    rcases x s with ⟨e | a, t⟩
    · rfl
    · exact (hf a).own t
  frame t ht s := by
    have h := hx.frame t ht s
    rw [bind_apply]
    rcases hxs : x s with ⟨e | a, s'⟩
    · simpa [hxs] using h
    · rw [hxs] at h
      exact ((hf a).frame t ht s').trans h

theorem Within.pure (a : α) : Within part u (Pure.pure a : Op σ ε α) := ⟨fun _ => rfl, fun _ _ _ => rfl⟩

theorem Within.raise (e : ε) : Within part u (Op.raise e : Op σ ε α) := ⟨fun _ => rfl, fun _ _ _ => rfl⟩

theorem Within.ofExcept (e : Except ε α) : Within part u (Op.ofExcept e : Op σ ε α) :=
  ⟨fun _ => rfl, fun _ _ _ => rfl⟩

/-- A read whose use depends on the part only. -/
theorem Within.get {f : σ → Op σ ε α} (same : ∀ s, f (part u s) = f s)
    (hf : ∀ s, Within part u (f s)) : Within part u (Op.get >>= f) where
  own s := by
    rw [get_bind, get_bind, same]
    exact (hf s).own s
  frame t ht s := (hf s).frame t ht s

theorem Within.modify {g : σ → σ} (own : ∀ s, part u (g s) = g (part u s))
    (frame : ∀ t, t ≠ u → ∀ s, part t (g s) = part t s) :
    Within part u (Op.modify g : Op σ ε Unit) where
  own s := by rw [modify_apply, modify_apply, own]
  frame := frame

end Op

/-! ## Systems -/

/-- Every admissible call, made under the invariant, is within the part of its owner. -/
structure Isolates (exec : α → Op σ ε β) (owner : α → τ) (part : τ → σ → σ) (ok : α → σ → Prop)
    (inv : σ → Prop) : Prop where
  keeps : ∀ c s, ok c s → inv s → inv (exec c s).2
  own : ∀ c s, ok c s → inv s →
    exec c (part (owner c) s) = ((exec c s).1, part (owner c) (exec c s).2)
  frame : ∀ c s t, ok c s → inv s → t ≠ owner c → part t (exec c s).2 = part t s

namespace Isolates

variable {exec : α → Op σ ε β} {owner : α → τ} {part : τ → σ → σ} {ok : α → σ → Prop}
  {inv : σ → Prop}

/-- Calls that are within their parts in every state. -/
theorem of_within (h : ∀ c, (exec c).Within part (owner c)) :
    Isolates exec owner part (fun _ _ => True) fun _ => True where
  keeps _ _ _ _ := trivial
  own c s _ _ := (h c).own s
  frame c s t _ _ ht := (h c).frame t ht s

variable [DecidableEq τ]

/-- The calls of an owner and their answers, as if nobody else had called. -/
theorem history_filter (h : Isolates exec owner part ok inv) (t : τ) {s : σ} {cs : List α}
    (hs : inv s) (hcs : Along exec ok s cs) :
    ((history exec s cs).filter fun e => owner e.1 = t) =
      history exec (part t s) (cs.filter fun c => owner c = t) := by
  induction cs generalizing s with
  | nil => rfl
  | cons c cs ih =>
    obtain ⟨hc, hcs⟩ := hcs
    have ih := ih (h.keeps c s hc hs) hcs
    by_cases ht : owner c = t
    · have hown := h.own c s hc hs
      rw [ht] at hown
      rw [history, List.filter_cons_of_pos (by simpa using ht), ih,
        List.filter_cons_of_pos (by simpa using ht), history, hown]
    · have hframe := h.frame c s t hc hs fun he => ht he.symm
      rw [history, List.filter_cons_of_neg (by simpa using ht), ih,
        List.filter_cons_of_neg (by simpa using ht), hframe]

/-- Noninterference: from states with the same part of `t`, histories with the same calls of `t` give
`t` the same answers. -/
theorem noninterference (h : Isolates exec owner part ok inv) (t : τ) {s s' : σ} {cs ds : List α}
    (hs : inv s) (hs' : inv s') (hcs : Along exec ok s cs) (hds : Along exec ok s' ds)
    (hpart : part t s = part t s')
    (same : (cs.filter fun c => owner c = t) = ds.filter fun c => owner c = t) :
    ((history exec s cs).filter fun e => owner e.1 = t) =
      (history exec s' ds).filter fun e => owner e.1 = t := by
  rw [h.history_filter t hs hcs, h.history_filter t hs' hds, hpart, same]

end Isolates

/-! ## Composition -/

section Composition

variable {ι : Type} [DecidableEq ι] {σ α β : ι → Type}

/-- A call of one component of a system of independent ones. -/
def runComponent (exec : ∀ i, α i → Op (σ i) ε (β i)) (c : Σ i, α i) :
    Op (∀ i, σ i) ε (Σ i, β i) := fun s =>
  let o := exec c.1 c.2 (s c.1)
  (o.1.map (Sigma.mk c.1), Function.update s c.1 o.2)

variable {exec : ∀ i, α i → Op (σ i) ε (β i)} {owner : ∀ i, α i → τ} {part : ∀ i, τ → σ i → σ i}
  {ok : ∀ i, α i → σ i → Prop} {inv : ∀ i, σ i → Prop}

theorem Isolates.components (h : ∀ i, Isolates (exec i) (owner i) (part i) (ok i) (inv i)) :
    Isolates (runComponent exec) (fun c => owner c.1 c.2) (fun t s i => part i t (s i))
      (fun c s => ok c.1 c.2 (s c.1)) fun s => ∀ i, inv i (s i) where
  keeps := by
    rintro ⟨i, c⟩ s hc hs j
    by_cases hj : j = i
    · subst hj
      simpa [runComponent] using (h j).keeps c (s j) hc (hs j)
    · simpa [runComponent, hj] using hs j
  own := by
    rintro ⟨i, c⟩ s hc hs
    have hown := (h i).own c (s i) hc (hs i)
    simp only [runComponent, hown, Prod.mk.injEq, true_and]
    funext j
    by_cases hj : j = i
    · subst hj
      simp
    · simp [hj]
  frame := by
    rintro ⟨i, c⟩ s t hc hs ht
    have hframe := (h i).frame c (s i) t hc (hs i) ht
    funext j
    by_cases hj : j = i
    · subst hj
      simpa [runComponent] using hframe
    · simp [runComponent, hj]

end Composition

end Lib
