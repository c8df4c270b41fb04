import PersonalAssistant.Lib.Dict

/-!
# Secondary indexes

A store keeps values under a partition and a key, and an index finds the key of a value by one of its
attributes. Under `Indexes` the attribute determines the key inside a partition. The invariant is kept
by storing a value whose attribute no other key has, and by rewriting values that keep the attribute.
-/
namespace Lib

variable {τ ι κ ν : Type} [DecidableEq τ] [DecidableEq ι] [DecidableEq κ]

/-- The index lists exactly the stored values, by the attribute `f`. -/
def Indexes (index : Dict (τ × ι) κ) (store : Dict (τ × κ) ν) (f : ν → ι) : Prop :=
  ∀ t i k, index.get? (t, i) = some k ↔ ∃ v, store.get? (t, k) = some v ∧ f v = i

namespace Indexes

variable {index : Dict (τ × ι) κ} {store store' : Dict (τ × κ) ν} {f : ν → ι}

theorem empty (f : ν → ι) : Indexes (.empty : Dict (τ × ι) κ) .empty f := by
  intro t i k
  simp

/-- Values with one attribute stand under one key. -/
theorem eq_of_attribute (h : Indexes index store f) {t : τ} {k k' : κ} {v v' : ν}
    (hv : store.get? (t, k) = some v) (hv' : store.get? (t, k') = some v') (hf : f v = f v') :
    k = k' := by
  have hk := (h t (f v) k).mpr ⟨v, hv, rfl⟩
  have hk' := (h t (f v) k').mpr ⟨v', hv', hf.symm⟩
  exact Option.some.inj (hk.symm.trans hk')

/-- Store a value whose attribute no other key has, under a key that had no other attribute. -/
theorem set (h : Indexes index store f) {t : τ} {k : κ} {v : ν}
    (free : ∀ k', index.get? (t, f v) = some k' → k' = k)
    (same : ∀ old, store.get? (t, k) = some old → f old = f v) :
    Indexes (index.set (t, f v) k) (store.set (t, k) v) f := by
  intro t' i k'
  simp only [Dict.get?_set, Prod.mk.injEq]
  by_cases hti : t' = t ∧ i = f v
  · -- the written attribute: its only key is the written one
    obtain ⟨rfl, rfl⟩ := hti
    simp only [and_self, if_true, true_and, Option.some.injEq]
    constructor
    · rintro rfl
      exact ⟨v, by simp, rfl⟩
    · rintro ⟨w, hw, hf⟩
      split_ifs at hw with hk
      · exact hk.symm
      · exact (free k' ((h _ _ _).mpr ⟨w, hw, hf⟩)).symm
  · rw [if_neg hti, h]
    constructor
    · rintro ⟨w, hw, hf⟩
      refine ⟨w, ?_, hf⟩
      rw [if_neg]
      · exact hw
      · rintro ⟨rfl, rfl⟩
        exact hti ⟨rfl, hf.symm.trans (same w hw)⟩
    · rintro ⟨w, hw, hf⟩
      split_ifs at hw with hk
      · obtain ⟨rfl, rfl⟩ := hk
        cases hw
        exact absurd ⟨rfl, hf.symm⟩ hti
      · exact ⟨w, hw, hf⟩

/-- Rewrite stored values without changing their attribute. -/
theorem rewrite (h : Indexes index store f)
    (same : ∀ j, (store'.get? j).map f = (store.get? j).map f) : Indexes index store' f := by
  intro t i k
  have hiff : (∃ v, store'.get? (t, k) = some v ∧ f v = i) ↔
      ∃ v, store.get? (t, k) = some v ∧ f v = i := by
    have hmap := same (t, k)
    simp only [← Option.map_eq_some_iff, hmap]
  rw [hiff]
  exact h t i k

end Indexes

end Lib
