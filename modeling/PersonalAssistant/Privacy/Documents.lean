import PersonalAssistant.Privacy.Leaks

/-!
# Redacting documents

A JSON document is an object graph without sharing: the redactor can be applied to it, and so to its own
output.
-/
namespace PersonalAssistant

open Lib

variable {platform : Platform} {t : PrivacyTables}

namespace Privacy

instance : DecidableEq Json := fun _ _ => decidable_of_iff _ jsonText_injective.eq_iff

/-- A document as an object. -/
def documentView : Json → View Json
  | .null => .none
  | .bool b => .bool b
  | .num n => .num n
  | .str s => .str s
  | .arr items => .list items
  | .obj members => .mapping (members.map fun e => (some e.1, e.2))

def documents (t : PrivacyTables) : ObjectGraph Json := ⟨documentView, t.repr⟩

@[simp] theorem view_documents (j : Json) : (documents t).view j = documentView j := rfl

@[simp] theorem str_documents (n : Nat) (s : String) : (documents t).str n (.str s) = some s :=
  ObjectGraph.str_of_leaf rfl n

/-- A key the redactor takes as it is. -/
def PlainKey (key : String) (c : KeyClass) : Prop :=
  strip key = key ∧ acceptedKey key = true ∧ classify (canonicalKey key) = c

instance (key : String) (c : KeyClass) : Decidable (PlainKey key c) :=
  inferInstanceAs (Decidable (_ ∧ _ ∧ _))

/-- A text the redactor keeps as a category. -/
def KeptCategory (u : Unicode) (s : String) : Prop := safeCategory u s = s

/-- An ASCII text is kept or not whatever the tables. -/
theorem keptCategory_of_ascii {u : Unicode} {s : String} (h : ∀ c ∈ (strip s).toList, IsAscii c)
    (hs : safeCategory .ascii s = s) : KeptCategory u s := by
  unfold KeptCategory safeCategory at *
  simp only at *
  rwa [isSensitiveString_ascii u h]

section Items

variable {limit : Nat} {nested : Nested Json} {output : Members} {key : String} {r : Json}

theorem sanitizeItem_category {s : String} (hkey : PlainKey key .category) (hs : KeptCategory t.unicode s) :
    sanitizeItem platform t (documents t) (limit + 1) nested output (some key, .str s) =
      some (Dict.insertEntry key (.str s) output) := by
  obtain ⟨hstrip, haccepted, hclass⟩ := hkey
  unfold KeptCategory at hs
  simp [sanitizeItem, hstrip, haccepted, sanitizeField, hclass, sanitizeCategoryValue, documentView,
    categoryOf, hs]

theorem sanitizeItem_metric {n : JsonNumber} (hkey : PlainKey key .metric) :
    sanitizeItem platform t (documents t) limit nested output (some key, .num n) =
      some (Dict.insertEntry key (.num n) output) := by
  obtain ⟨hstrip, haccepted, hclass⟩ := hkey
  simp [sanitizeItem, hstrip, haccepted, sanitizeField, hclass, sanitizeMetric, documentView]

theorem sanitizeItem_container {j : Json} (hkey : PlainKey key .container)
    (hj : nested.container (documents t) (canonicalKey key) r = some j) :
    sanitizeItem platform t (documents t) limit nested output (some key, r) =
      some (Dict.insertEntry key j output) := by
  obtain ⟨hstrip, haccepted, hclass⟩ := hkey
  simp [sanitizeItem, hstrip, haccepted, sanitizeField, hclass, hj]

end Items

end Privacy

end PersonalAssistant
