import Mathlib.Data.Option.Basic

/-!
# Mirrored stores

A store of primaries and a store of their mirrors hold values under common keys. Whoever changes
primaries mirrors the changed ones afterwards, one by one; until then they are pending. A primary and its
mirror are there together, and they agree unless the primary is pending.
-/
namespace Lib

variable {κ α β : Type} {R R' : β → α → Prop} {p p' : κ → Option α} {q q' : κ → Option β}
  {pending : List α} {k : κ} {a : α} {b : β}

structure Mirrored (R : β → α → Prop) (p : κ → Option α) (q : κ → Option β) (pending : List α) :
    Prop where
  together : ∀ k, (q k).isSome = (p k).isSome
  agree : ∀ k a b, p k = some a → q k = some b → R b a ∨ a ∈ pending

namespace Mirrored

theorem empty (R : β → α → Prop) (pending : List α) :
    Mirrored R (fun _ : κ => none) (fun _ => none) pending :=
  ⟨fun _ => rfl, fun _ _ _ h => by cases h⟩

/-- A primary has a mirror. -/
theorem exists_mirror (h : Mirrored R p q pending) (ha : p k = some a) : ∃ b, q k = some b := by
  have hsome := h.together k
  rw [ha] at hsome
  exact Option.isSome_iff_exists.mp hsome

theorem exists_primary (h : Mirrored R p q pending) (hb : q k = some b) : ∃ a, p k = some a := by
  have hsome := h.together k
  rw [hb] at hsome
  exact Option.isSome_iff_exists.mp hsome.symm

/-- Primaries were changed, and the changed ones are pending. -/
theorem change (h : Mirrored R p q []) (same : ∀ k, (p' k).isSome = (p k).isSome)
    (changed : ∀ k a, p' k = some a → p k = some a ∨ a ∈ pending) : Mirrored R p' q pending := by
  refine ⟨fun k => (h.together k).trans (same k).symm, fun k a b ha hb => ?_⟩
  obtain ha | hpending := changed k a ha
  · exact .inl ((h.agree k a b ha hb).resolve_right (List.not_mem_nil))
  · exact .inr hpending

/-- A pending primary was mirrored. -/
theorem mirror (h : Mirrored R p q (a :: pending)) (ha : p k = some a)
    (unique : ∀ j, p j = some a → j = k) (hb : q' k = some b) (agrees : R b a)
    (other : ∀ j, j ≠ k → q' j = q j) : Mirrored R p q' pending := by
  refine ⟨fun j => ?_, fun j a' b' ha' hb' => ?_⟩
  · by_cases hj : j = k
    · subst hj
      simp [hb, ha]
    · rw [other j hj]
      exact h.together j
  · by_cases hj : j = k
    · subst hj
      cases ha.symm.trans ha'
      cases hb.symm.trans hb'
      exact .inl agrees
    · rw [other j hj] at hb'
      refine (h.agree j a' b' ha' hb').imp_right fun hmem => ?_
      refine (List.mem_cons.mp hmem).resolve_left ?_
      rintro rfl
      exact hj (unique j ha')

/-- A primary was created together with its mirror. -/
theorem create (h : Mirrored R p q []) (ha : p' k = some a) (hb : q' k = some b)
    (agrees : R b a) (primary : ∀ j, j ≠ k → p' j = p j) (mirrors : ∀ j, j ≠ k → q' j = q j) :
    Mirrored R p' q' [] := by
  refine ⟨fun j => ?_, fun j a' b' ha' hb' => ?_⟩
  · by_cases hj : j = k
    · subst hj
      simp [ha, hb]
    · rw [primary j hj, mirrors j hj]
      exact h.together j
  · by_cases hj : j = k
    · subst hj
      cases ha.symm.trans ha'
      cases hb.symm.trans hb'
      exact .inl agrees
    · rw [primary j hj] at ha'
      rw [mirrors j hj] at hb'
      exact h.agree j a' b' ha' hb'

/-- Another notion of agreement, which may be stronger for what is pending. -/
theorem imp (h : Mirrored R p q pending)
    (himp : ∀ k a b, p k = some a → a ∉ pending → R b a → R' b a) : Mirrored R' p q pending := by
  refine ⟨h.together, fun k a b ha hb => ?_⟩
  by_cases hmem : a ∈ pending
  · exact .inr hmem
  · exact .inl (himp k a b ha hmem ((h.agree k a b ha hb).resolve_right hmem))

end Mirrored

end Lib
