import Mathlib.Data.List.Basic
import Mathlib.Data.List.Forall2
import PersonalAssistant.Lib.Effect

/-!
# Loops that may fail

Traversals and folds that may fail: when they succeed, what a successful run preserves, and that a
step may be replaced by one that does the same.
-/
namespace Lib

variable {α β σ : Type}

theorem mapM_eq_some_iff {f : α → Option β} {as : List α} {bs : List β} :
    as.mapM f = some bs ↔ List.Forall₂ (fun a b => f a = some b) as bs := by
  induction as generalizing bs with
  | nil => simp [eq_comm]
  | cons a as ih =>
    rw [List.mapM_cons]
    constructor
    · intro h
      obtain ⟨b, hb, h⟩ := Option.bind_eq_some_iff.mp h
      obtain ⟨bs', hbs, h⟩ := Option.bind_eq_some_iff.mp h
      cases h
      exact .cons hb (ih.mp hbs)
    · rintro (_ | ⟨hb, hbs⟩)
      simp [hb, ih.mpr hbs]

/-- Every result of a traversal is the result of a step. -/
theorem exists_of_mem_mapM {f : α → Option β} {as : List α} {bs : List β} (h : as.mapM f = some bs)
    {b : β} (hb : b ∈ bs) : ∃ a ∈ as, f a = some b := by
  induction mapM_eq_some_iff.mp h with
  | nil => cases hb
  | cons hstep htail ih =>
    rcases List.mem_cons.mp hb with rfl | hb
    · exact ⟨_, by simp, hstep⟩
    · obtain ⟨a, ha, hab⟩ := ih (mapM_eq_some_iff.mpr htail) hb
      exact ⟨a, by simp [ha], hab⟩

theorem isSome_mapM {f : α → Option β} {as : List α} :
    (as.mapM f).isSome ↔ ∀ a ∈ as, (f a).isSome := by
  induction as with
  | nil => simp
  | cons a as ih =>
    rw [List.mapM_cons, List.forall_mem_cons, ← ih]
    cases f a <;> cases as.mapM f <;> simp

/-- A traversal whose steps return. -/
theorem exists_mapM_ok {ε : Type} {f : α → Except ε β} {R : α → β → Prop} {as : List α}
    (h : ∀ a ∈ as, ∃ b, f a = .ok b ∧ R a b) : ∃ bs, as.mapM f = .ok bs ∧ List.Forall₂ R as bs := by
  induction as with
  | nil => exact ⟨[], rfl, .nil⟩
  | cons a as ih =>
    obtain ⟨b, hb, hab⟩ := h a (by simp)
    obtain ⟨bs, hbs, hrel⟩ := ih fun a' ha' => h a' (by simp [ha'])
    refine ⟨b :: bs, ?_, .cons hab hrel⟩
    rw [List.mapM_cons, hb, hbs]
    rfl

theorem mapM_eq_ok_iff {ε : Type} {f : α → Except ε β} {as : List α} {bs : List β} :
    as.mapM f = .ok bs ↔ List.Forall₂ (fun a b => f a = .ok b) as bs := by
  induction as generalizing bs with
  | nil => exact ⟨fun h => by cases h; exact .nil, fun h => by cases h; rfl⟩
  | cons a as ih =>
    rw [List.mapM_cons]
    constructor
    · intro h
      obtain ⟨b, hb, h⟩ := except_bind_eq_ok.mp h
      obtain ⟨rest, hrest, h⟩ := except_bind_eq_ok.mp h
      obtain rfl := Except.ok.inj h
      exact .cons hb (ih.mp hrest)
    · rintro (_ | ⟨hb, hrest⟩)
      rw [hb, ih.mpr hrest]
      rfl

theorem exists_of_mem_left {R : α → β → Prop} {as : List α} {bs : List β} (h : List.Forall₂ R as bs) {a : α}
    (ha : a ∈ as) : ∃ b ∈ bs, R a b := by
  induction h with
  | nil => cases ha
  | cons hab _ ih =>
    rcases List.mem_cons.mp ha with rfl | ha
    · exact ⟨_, by simp, hab⟩
    · obtain ⟨b, hb, hrel⟩ := ih ha
      exact ⟨b, by simp [hb], hrel⟩

theorem exists_of_mem_right {R : α → β → Prop} {as : List α} {bs : List β} (h : List.Forall₂ R as bs)
    {b : β} (hb : b ∈ bs) : ∃ a ∈ as, R a b :=
  exists_of_mem_left h.flip hb

theorem mapM_congr {f f' : α → Option β} {as : List α} (h : ∀ a ∈ as, f a = f' a) :
    as.mapM f = as.mapM f' := by
  induction as with
  | nil => rfl
  | cons a as ih =>
    rw [List.mapM_cons, List.mapM_cons, h a (by simp), ih fun b hb => h b (by simp [hb])]

/-- What every step preserves, a fold preserves. -/
theorem foldlM_invariant {f : σ → α → Option σ} {P : σ → Prop} {as : List α}
    (hf : ∀ s, P s → ∀ a ∈ as, ∀ s', f s a = some s' → P s') {s s' : σ} (hs : P s)
    (h : as.foldlM f s = some s') : P s' := by
  induction as generalizing s with
  | nil =>
    cases h
    exact hs
  | cons a as ih =>
    rw [List.foldlM_cons] at h
    obtain ⟨next, hnext, h⟩ := Option.bind_eq_some_iff.mp h
    exact ih (fun s hs b hb => hf s hs b (by simp [hb])) (hf s hs a (by simp) next hnext) h

/-- A fold whose steps fail at no state or at every state. -/
theorem isSome_foldlM {f : σ → α → Option σ} {ok : α → Prop} {as : List α}
    (hf : ∀ s, ∀ a ∈ as, (f s a).isSome ↔ ok a) (s : σ) :
    (as.foldlM f s).isSome ↔ ∀ a ∈ as, ok a := by
  induction as generalizing s with
  | nil => simp
  | cons a as ih =>
    rw [List.foldlM_cons, List.forall_mem_cons, ← hf s a (by simp)]
    cases f s a with
    | none => simp
    | some next => simpa using ih (fun s b hb => hf s b (by simp [hb])) next

/-- Folds over related lists whose steps do the same. -/
theorem foldlM_congr {R : α → β → Prop} {f : σ → α → Option σ} {f' : σ → β → Option σ} {as : List α}
    {bs : List β} (h : List.Forall₂ R as bs) (hf : ∀ s, ∀ a ∈ as, ∀ b, R a b → f s a = f' s b) (s : σ) :
    as.foldlM f s = bs.foldlM f' s := by
  induction h generalizing s with
  | nil => rfl
  | cons hab _ ih =>
    rw [List.foldlM_cons, List.foldlM_cons, hf s _ (by simp) _ hab]
    exact congrArg _ (funext fun next => ih (fun s a ha => hf s a (by simp [ha])) next)

end Lib
