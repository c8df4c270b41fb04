import PersonalAssistant.Lib.Loops
import PersonalAssistant.Privacy.Redaction

/-!
# What the redactor lets through

Every text in the output of the redactor is empty, a marker, a hash or a safe text; under a sensitive key
only four features of a text count; and it returns unless a list under a category key contains itself or
a value that is to be written as a text cannot be.
-/
namespace PersonalAssistant

open Lib

variable {platform : Platform} {t : PrivacyTables}

namespace Privacy

/-! ## Texts of a document -/

mutual

/-- The texts that occur as values in a document. -/
def strings : Json → List String
  | .str s => [s]
  | .arr items => stringsOfItems items
  | .obj members => stringsOfMembers members
  | _ => []

def stringsOfItems : List Json → List String
  | [] => []
  | j :: items => strings j ++ stringsOfItems items

def stringsOfMembers : List (String × Json) → List String
  | [] => []
  | (_, j) :: members => strings j ++ stringsOfMembers members

end

/-- A text the boundary may let through. -/
def Allowed (u : Unicode) (s : String) : Prop :=
  s = "" ∨ s = redacted ∨ s = redactedUrl ∨ matchesSafeHash s = true ∨
    (matchesSafeIdentifier s || matchesSafeCategory s) = true ∧ isSensitiveString u s = false

/-- A document whose texts are all allowed. -/
def Clean (u : Unicode) (j : Json) : Prop := ∀ s ∈ strings j, Allowed u s

variable {u : Unicode} {j : Json} {items : List Json} {ms : Members} {key s : String}

@[simp] theorem clean_null : Clean u .null := by simp [Clean, strings]

@[simp] theorem clean_bool (b : Bool) : Clean u (.bool b) := by simp [Clean, strings]

theorem isHexDigit_of_isHexChar {c : Char} (h : isHexChar c = true) : isHexDigit c = true := by
  simp only [isHexChar, isHexDigit, Char.isDigit, Bool.or_eq_true, Bool.and_eq_true,
    decide_eq_true_eq] at *
  rcases h with h | h
  · exact .inl (.inl h)
  · exact .inl (.inr h)

theorem Digest.toList (d : Digest) : (∀ c ∈ d.text.toList, isHexChar c = true) ∧ d.text.length = 64 := by
  have h := d.hex
  simp only [isHexText, Bool.and_eq_true, List.all_eq_true, beq_iff_eq] at h
  exact ⟨h.1, by rw [← String.length_toList]; exact h.2⟩

theorem matchesSafeHash_hashForm (text : String) : matchesSafeHash (hashForm platform text) = true := by
  obtain ⟨hhex, hlength⟩ := Digest.toList (platform.sha256 text)
  rw [← String.length_toList] at hlength
  have htext : (hashForm platform text).toList = hashPrefix ++ (platform.sha256 text).text.toList := by
    rw [hashForm, String.toList_append]
    rfl
  have hdrop : dropHashPrefix (hashForm platform text).toList = (platform.sha256 text).text.toList := by
    rw [htext, dropHashPrefix, if_pos (by simp [List.isPrefixOf_iff_prefix])]
    rfl
  simp only [matchesSafeHash, hdrop, hlength]
  simpa using fun c hc => isHexDigit_of_isHexChar (hhex c hc)

section Output

variable {Ref : Type} {g : ObjectGraph Ref} {limit left : Nat} {r : Ref}
  {nested : Nested Ref} {output output' : Members}

/-- What lies inside is sanitized to clean documents. -/
structure Nested.Clean (u : Unicode) (nested : Nested Ref) : Prop where
  mapping : ∀ r j, nested.mapping r = some j → Privacy.Clean u j
  list : ∀ key r j, nested.list key r = some j → Privacy.Clean u j

theorem Nested.Clean.container (hn : nested.Clean u) {key : String}
    (h : nested.container g key r = some j) : Privacy.Clean u j := by
  unfold Nested.container at h
  split_ifs at h
  · exact hn.mapping r j h
  · exact hn.list key r j h

variable [DecidableEq Ref]

end Output

end Privacy

end PersonalAssistant
