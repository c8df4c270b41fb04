import PersonalAssistant.Lib.Regex

/-!
# The spans a match goes through

Exact descriptions of the cursors `Regex.run` reaches, for the expressions of fixed formats: a repeated
character class, a literal character, a group.
-/
namespace Lib

namespace Cursor

/-- The position `w` further, before `rest`. -/
def advance (s : Cursor) (w rest : List Char) : Cursor := ⟨w.reverse ++ s.before, rest, s.groups⟩

@[simp] theorem advance_nil (s : Cursor) : s.advance [] s.rest = s := rfl

theorem advance_advance (s : Cursor) (u v rest rest' : List Char) :
    (s.advance u rest).advance v rest' = s.advance (u ++ v) rest' := by simp [advance]

end Cursor

namespace Regex

open Cursor

variable {a : Regex} {p : Char → Bool} {s t : Cursor}

theorem mem_run_char : t ∈ run (char p) s ↔ ∃ c cs, s.rest = c :: cs ∧ p c = true ∧ t = s.advance [c] cs := by
  unfold run
  cases hs : s.rest with
  | nil => simp
  | cons c cs =>
    cases hc : p c <;> simp [advance, hc]

theorem mem_iterate_char {n : Nat} (hn : s.rest.length ≤ n) :
    t ∈ iterate (run (char p)) n s ↔
      ∃ w rest, (∀ c ∈ w, p c = true) ∧ s.rest = w ++ rest ∧ t = s.advance w rest := by
  induction n generalizing s with
  | zero =>
    have hs : s.rest = [] := by simpa using hn
    simp only [iterate, List.mem_singleton]
    constructor
    · rintro rfl
      exact ⟨[], t.rest, by simp, rfl, rfl⟩
    · rintro ⟨w, rest, -, hsplit, rfl⟩
      obtain ⟨rfl, rfl⟩ := List.append_eq_nil_iff.mp (hsplit.symm.trans hs)
      exact (congrArg (s.advance []) hs.symm).trans (advance_nil s)
  | succ n ih =>
    simp only [iterate, List.mem_append, List.mem_singleton, List.mem_flatMap, List.mem_filter]
    constructor
    · rintro (⟨u, ⟨hu, hlt⟩, ht⟩ | rfl)
      · obtain ⟨c, cs, hs, hc, rfl⟩ := mem_run_char.mp hu
        rw [hs] at hn
        obtain ⟨w, rest, hw, hsplit, rfl⟩ := (ih (by simpa [advance] using hn)).mp ht
        have hcs : cs = w ++ rest := hsplit
        exact ⟨c :: w, rest, by simpa using ⟨hc, hw⟩, by rw [hs, hcs]; rfl, advance_advance _ _ _ _ _⟩
      · exact ⟨[], t.rest, by simp, rfl, rfl⟩
    · rintro ⟨w, rest, hw, hsplit, rfl⟩
      cases w with
      | nil =>
        right
        rw [List.nil_append] at hsplit
        rw [← hsplit, advance_nil]
      | cons c w =>
        left
        refine ⟨s.advance [c] (w ++ rest), ⟨mem_run_char.mpr ⟨c, w ++ rest, hsplit, hw c (by simp), rfl⟩, ?_⟩, ?_⟩
        · simp [advance, hsplit]
        · rw [hsplit] at hn
          refine (ih (by simpa [advance] using hn)).mpr ⟨w, rest, fun d hd => hw d (by simp [hd]), rfl, ?_⟩
          rw [advance_advance]
          rfl

/-- `p*` stops anywhere in the characters of the class. -/
theorem mem_run_star_char : t ∈ run (star (char p)) s ↔
    ∃ w rest, (∀ c ∈ w, p c = true) ∧ s.rest = w ++ rest ∧ t = s.advance w rest := mem_iterate_char le_rfl

/-- `p+` reads at least one. -/
theorem mem_run_plus_char : t ∈ run (plus (char p)) s ↔
    ∃ w rest, w ≠ [] ∧ (∀ c ∈ w, p c = true) ∧ s.rest = w ++ rest ∧ t = s.advance w rest := by
  simp only [plus, run, List.mem_flatMap]
  constructor
  · rintro ⟨u, hu, ht⟩
    obtain ⟨c, cs, hs, hc, rfl⟩ := mem_run_char.mp hu
    obtain ⟨w, rest, hw, hsplit, rfl⟩ := mem_run_star_char.mp ht
    have hcs : cs = w ++ rest := hsplit
    exact ⟨c :: w, rest, by simp, by simpa using ⟨hc, hw⟩, by rw [hs, hcs]; rfl, advance_advance _ _ _ _ _⟩
  · rintro ⟨w, rest, hne, hw, hsplit, rfl⟩
    obtain ⟨c, w, rfl⟩ := List.exists_cons_of_ne_nil hne
    refine ⟨s.advance [c] (w ++ rest), mem_run_char.mpr ⟨c, w ++ rest, hsplit, hw c (by simp), rfl⟩,
      mem_run_star_char.mpr ⟨w, rest, fun d hd => hw d (by simp [hd]), rfl, ?_⟩⟩
    rw [advance_advance]
    rfl

theorem mem_run_lit {c : Char} : t ∈ run (lit c) s ↔ ∃ rest, s.rest = c :: rest ∧ t = s.advance [c] rest := by
  rw [lit, mem_run_char]
  constructor
  · rintro ⟨d, cs, hs, hd, rfl⟩
    obtain rfl : d = c := by simpa using hd
    exact ⟨cs, hs, rfl⟩
  · rintro ⟨rest, hs, rfl⟩
    exact ⟨c, rest, hs, by simp, rfl⟩

/-- A group records what its expression read. -/
theorem capture_advance {k : Nat} {w rest : List Char} (hs : s.rest = w ++ rest) :
    s.capture k (s.advance w rest) = { s.advance w rest with groups := (k, w) :: s.groups } := by
  have hconsumed : s.consumed (s.advance w rest) = w := by simp [consumed, advance, hs]
  simp only [capture, hconsumed]
  rfl

theorem mem_run_atEnd : t ∈ run atEnd s ↔ s.rest = [] ∧ t = s := by
  simp only [atEnd, run]
  cases hs : s.rest <;> simp

end Regex

end Lib
