import Mathlib.Data.List.DropRight
import Mathlib.Data.List.Basic

/-!
# Text helpers of the host language

Two notions of blank character occur: `isWhiteSpace` is the Unicode `White_Space` property, used when a
validated model trims its fields, and `isSpace` is the larger set that the host's own `strip` and
`split` remove (it adds the four ASCII information separators). `strip` is parametric in the set.
-/
namespace Lib

/-- The Unicode `White_Space` property. -/
def isWhiteSpace (c : Char) : Bool :=
  let n := c.toNat
  (9 ≤ n && n ≤ 13) || n == 32 || n == 0x85 || n == 0xA0 || n == 0x1680 ||
    (0x2000 ≤ n && n ≤ 0x200A) || n == 0x2028 || n == 0x2029 || n == 0x202F || n == 0x205F ||
    n == 0x3000

/-- Characters removed by the host's `str.strip`: white space and the separators `\x1c` to `\x1f`. -/
def isSpace (c : Char) : Bool := isWhiteSpace c || (0x1C ≤ c.toNat && c.toNat ≤ 0x1F)

/-- Remove the longest blank prefix and suffix. -/
def stripList (p : Char → Bool) (cs : List Char) : List Char := (cs.dropWhile p).rdropWhile p

def stripBy (p : Char → Bool) (s : String) : String := String.ofList (stripList p s.toList)

/-- The host's `str.strip()`. -/
def strip (s : String) : String := stripBy isSpace s

/-- Trimming done by a validated model. -/
def trim (s : String) : String := stripBy isWhiteSpace s

/-- A string a model's trimming leaves alone. -/
def Trimmed (s : String) : Prop := trim s = s

instance (s : String) : Decidable (Trimmed s) := inferInstanceAs (Decidable (trim s = s))

variable {p q : Char → Bool}

@[simp] theorem toList_stripBy (p : Char → Bool) (s : String) :
    (stripBy p s).toList = stripList p s.toList := by simp [stripBy]

/-- Stripping changes nothing exactly when neither end is blank. -/
theorem stripList_eq_self {cs : List Char} (hh : ∀ c ∈ cs.head?, p c = false)
    (hl : ∀ c ∈ cs.getLast?, p c = false) : stripList p cs = cs := by
  have h₁ : cs.dropWhile p = cs := by
    cases cs with
    | nil => rfl
    | cons c cs => simp [hh c (by simp)]
  rw [stripList, h₁, List.rdropWhile_eq_self_iff]
  intro hne
  simpa using hl _ (by simp [List.getLast?_eq_getLast_of_ne_nil hne])

/-- A part without blank ends is stripped on neither side. -/
theorem stripList_append {pre : List Char} (hne : pre ≠ []) (hh : ∀ c ∈ pre.head?, p c = false)
    (hl : ∀ c ∈ pre.getLast?, p c = false) (post : List Char) :
    stripList p (pre ++ post) = pre ++ post.rdropWhile p := by
  obtain ⟨c, cs, rfl⟩ := List.exists_cons_of_ne_nil hne
  rw [stripList, List.cons_append, List.dropWhile_cons_of_neg (by simp [hh c rfl]), ← List.cons_append]
  induction post using List.reverseRecOn with
  | nil =>
    rw [List.append_nil, List.rdropWhile_nil, List.append_nil, List.rdropWhile_eq_self_iff]
    intro hne
    simpa using hl _ (by simp [List.getLast?_eq_getLast_of_ne_nil hne])
  | append_singleton post d ih =>
    rw [← List.append_assoc, List.rdropWhile_concat, List.rdropWhile_concat, ih]
    split_ifs <;> simp

theorem length_stripList_le (p : Char → Bool) (cs : List Char) : (stripList p cs).length ≤ cs.length :=
  (List.rdropWhile_prefix p _).length_le.trans (List.dropWhile_suffix p).length_le

theorem head?_stripList (cs : List Char) : ∀ c ∈ (stripList p cs).head?, p c = false := by
  intro c hc
  obtain ⟨t, ht⟩ : stripList p cs <+: cs.dropWhile p := List.rdropWhile_prefix p _
  have hd : c ∈ (cs.dropWhile p).head? := by
    cases h : stripList p cs with
    | nil => simp [h] at hc
    | cons a as => rw [h] at hc ht; simp [← ht] at hc ⊢; exact hc
  have := List.head?_dropWhile_not p cs
  rw [Option.mem_def.mp hd] at this
  simpa using this

theorem getLast?_stripList (cs : List Char) : ∀ c ∈ (stripList p cs).getLast?, p c = false := by
  intro c hc
  have hne : stripList p cs ≠ [] := by rintro h; simp [h] at hc
  have := List.rdropWhile_last_not p (cs.dropWhile p) hne
  rw [List.getLast?_eq_getLast_of_ne_nil hne, Option.mem_some_iff] at hc
  rw [← hc]
  simpa [stripList] using this

@[simp] theorem stripList_stripList (cs : List Char) :
    stripList p (stripList p cs) = stripList p cs :=
  stripList_eq_self (head?_stripList cs) (getLast?_stripList cs)

@[simp] theorem stripBy_stripBy (s : String) : stripBy p (stripBy p s) = stripBy p s := by
  rw [← String.toList_inj]; simp

theorem trimmed_trim (s : String) : Trimmed (trim s) := stripBy_stripBy s

/-- A concrete text without spaces, by evaluation. -/
theorem forall_not_isSpace {s : String} (h : s.toList.any isSpace = false) :
    ∀ c ∈ s.toList, isSpace c = false := by
  simpa using h

theorem isWhiteSpace_eq_false_of_isSpace {c : Char} (h : isSpace c = false) :
    isWhiteSpace c = false := by
  simp only [isSpace, Bool.or_eq_false_iff] at h; exact h.1

/-- What the host stripped, a model leaves alone. -/
theorem trimmed_strip (s : String) : Trimmed (strip s) := by
  change stripBy isWhiteSpace (stripBy isSpace s) = stripBy isSpace s
  rw [← String.toList_inj, toList_stripBy, toList_stripBy]
  exact stripList_eq_self
    (fun c hc => isWhiteSpace_eq_false_of_isSpace (head?_stripList _ c hc))
    (fun c hc => isWhiteSpace_eq_false_of_isSpace (getLast?_stripList _ c hc))

/-- A string without blank characters is left alone. -/
theorem stripBy_eq_self_of_all {s : String} (h : ∀ c ∈ s.toList, p c = false) :
    stripBy p s = s := by
  rw [← String.toList_inj, toList_stripBy]
  exact stripList_eq_self (fun c hc => h c (List.mem_of_mem_head? hc))
    (fun c hc => h c (List.mem_of_mem_getLast? hc))

end Lib
