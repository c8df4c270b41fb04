import Mathlib.Data.List.Sort
import PersonalAssistant.Lib.Effect

/-!
# Selecting from a list

A batch selects from a collection by filtering, sorting and cutting. Filtering and stable sorting
commute, a search for a unique element may test its conditions in any order, and a traversal whose
every step succeeds is a map.
-/
namespace Lib

variable {α β ε : Type}

section Sorted

variable {r : α → α → Prop} [DecidableRel r] [IsTrans α r]

/-- Inserting into a sorted list commutes with filtering it. -/
theorem filter_orderedInsert (p : α → Bool) (a : α) {l : List α} (h : l.Pairwise r) :
    (l.orderedInsert r a).filter p =
      if p a then (l.filter p).orderedInsert r a else l.filter p := by
  induction l with
  | nil => cases hp : p a <;> simp [hp]
  | cons b l ih =>
    obtain ⟨hb, hl⟩ := List.pairwise_cons.mp h
    by_cases hab : r a b
    · -- `a` lands in front, and everything the filter keeps stays behind it
      rw [List.orderedInsert_cons_of_le r l hab]
      cases hp : p a with
      | false => simp [hp]
      | true =>
        rw [List.filter_cons_of_pos hp, if_pos rfl]
        cases hf : (b :: l).filter p with
        | nil => rfl
        | cons c m =>
          have hc : c ∈ b :: l := List.mem_of_mem_filter (by rw [hf]; simp)
          have hac : r a c := by
            rcases List.mem_cons.mp hc with rfl | hc
            · exact hab
            · exact trans_of r hab (hb c hc)
          rw [List.orderedInsert_cons_of_le r m hac]
    · rw [List.orderedInsert_of_not_le r l hab]
      cases hpb : p b with
      | false => simp [hpb, ih hl]
      | true =>
        rw [List.filter_cons_of_pos hpb, ih hl, List.filter_cons_of_pos hpb,
          List.orderedInsert_of_not_le r _ hab]
        split_ifs <;> rfl

/-- Sorting and then filtering is filtering and then sorting. -/
theorem filter_insertionSort [Std.Total r] (p : α → Bool) (l : List α) :
    (l.insertionSort r).filter p = (l.filter p).insertionSort r := by
  induction l with
  | nil => rfl
  | cons a l ih =>
    rw [List.insertionSort_cons, filter_orderedInsert p a (List.pairwise_insertionSort r l), ih]
    cases hp : p a <;> simp [hp]

end Sorted

/-- Searching for an element that one condition already determines. -/
theorem find?_and {p q : α → Bool} {l : List α}
    (h : ∀ a ∈ l, ∀ b ∈ l, p a = true → p b = true → a = b) :
    l.find? (fun a => p a && q a) = (l.find? p).filter q := by
  cases hf : l.find? p with
  | none =>
    simp only [List.find?_eq_none] at hf
    simp only [Option.filter_none, List.find?_eq_none]
    grind
  | some a =>
    have ha := List.find?_some hf
    have hm := List.mem_of_find?_eq_some hf
    cases hq : q a with
    | true =>
      rw [Option.filter_some_pos hq]
      obtain ⟨b, hb⟩ : ∃ b, l.find? (fun a => p a && q a) = some b := by
        rw [← Option.isSome_iff_exists, List.find?_isSome]
        exact ⟨a, hm, by simp [ha, hq]⟩
      have hpb := List.find?_some hb
      simp only [Bool.and_eq_true] at hpb
      rw [hb, h b (List.mem_of_find?_eq_some hb) a hm hpb.1 ha]
    | false =>
      rw [Option.filter_some_neg (by simp [hq]), List.find?_eq_none]
      intro b hb hpq
      simp only [Bool.and_eq_true] at hpq
      rw [h b hb a hm hpq.1 ha, hq] at hpq
      exact absurd hpq.2 (by simp)

/-- A traversal all of whose steps succeed. -/
theorem mapM_eq_ok {f : α → Except ε β} {g : α → β} {l : List α} (h : ∀ a ∈ l, f a = .ok (g a)) :
    l.mapM f = .ok (l.map g) := by
  induction l with
  | nil => rfl
  | cons a l ih =>
    rw [List.mapM_cons, h a (by simp), ih fun b hb => h b (by simp [hb])]
    rfl

/-! ## Cut selections -/

theorem forall_split_cons {C : List α → α → Prop} {b : α} {l : List α} :
    (∀ pre a post, b :: l = pre ++ a :: post → C pre a) ↔
      C [] b ∧ ∀ pre a post, l = pre ++ a :: post → C (b :: pre) a := by
  constructor
  · intro h
    exact ⟨h [] b l rfl, fun pre a post heq => h (b :: pre) a post (by simp [heq])⟩
  · rintro ⟨hfirst, hrest⟩ pre a post heq
    cases pre with
    | nil =>
      obtain ⟨rfl, -⟩ := List.cons.inj heq
      exact hfirst
    | cons c pre =>
      obtain ⟨rfl, htail⟩ := List.cons.inj heq
      exact hrest pre a post htail

/-- Two selections from distinct elements, cut to the same length, are equal when they select alike as long as
the first has not selected enough. -/
theorem take_filter_eq_iff {p q : α → Bool} {l : List α} (h : l.Nodup) (n : Nat) :
    (l.filter p).take n = (l.filter q).take n ↔
      ∀ pre a post, l = pre ++ a :: post → (pre.filter p).length < n → p a = q a := by
  induction l generalizing n with
  | nil => simp
  | cons b l ih =>
    obtain ⟨hb, hl⟩ := List.nodup_cons.mp h
    rw [forall_split_cons (C := fun pre a => (pre.filter p).length < n → p a = q a)]
    cases n with
    | zero => simp
    | succ m =>
      have hnew : ∀ xs : List α, ∀ r : α → Bool, b :: xs ≠ (l.filter r).take (m + 1) := by
        intro xs r heq
        have hmem : b ∈ (l.filter r).take (m + 1) := heq ▸ List.mem_cons_self
        exact hb (List.mem_of_mem_filter (List.mem_of_mem_take hmem))
      cases hp : p b <;> cases hq : q b
      · simpa [hp, hq] using ih hl (m + 1)
      · simpa [hp, hq] using fun heq => hnew _ _ heq.symm
      · simpa [hp, hq] using hnew _ _
      · simpa [hp, hq] using ih hl m

end Lib
