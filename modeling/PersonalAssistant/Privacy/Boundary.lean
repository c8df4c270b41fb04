import Mathlib.Data.Fintype.Card
import Mathlib.Data.Set.Finite.Lattice
import Mathlib.Logic.Relation
import Mathlib.Order.Bounds.Basic
import PersonalAssistant.Privacy.Leaks

/-!
# The privacy boundary

When the redactor returns, and what its output depends on. Every container but one is cut at a depth and
where it contains itself; the lists under a category key are followed as far as they go. Under some keys a
value is written as a text, which the interpreter refuses for a long integer and for a deep container.
-/
namespace PersonalAssistant

open Lib

variable {platform : Platform} {t : PrivacyTables}

namespace Privacy

variable {Ref : Type}

/-! ## Category values -/

/-- An object is one of the items of a list that the redactor looks at. -/
def ListItem (g : ObjectGraph Ref) (item list : Ref) : Prop :=
  ∃ items, (g.view list).items? = some items ∧ item ∈ items.take maxItems

/-- Lists nested in lists at most so deep, the innermost value counted. -/
def UnrollsWithin (g : ObjectGraph Ref) : Nat → Ref → Prop
  | 0, _ => False
  | n + 1, r => ∀ item, ListItem g item r → UnrollsWithin g n item

/-- A value the redactor finds under a category key inside a container with `left` levels to go. -/
inductive CategoryValue (g : ObjectGraph Ref) : Nat → List Ref → Ref → Ref → Prop where
  | here {left : Nat} {seen : List Ref} {m v : Ref} {items : List (Option String × Ref)}
      {key : Option String} : g.view m = .mapping items → m ∉ seen → (key, v) ∈ items.take maxItems →
      itemClass key = .category → CategoryValue g (left + 1) seen m v
  | field {left : Nat} {seen : List Ref} {m v w : Ref} {items : List (Option String × Ref)}
      {key : Option String} : g.view m = .mapping items → m ∉ seen → (key, v) ∈ items.take maxItems →
      itemClass key = .container ∨ itemClass key = .binary ∧ (g.view v).isMapping = true →
      CategoryValue g left (m :: seen) v w → CategoryValue g (left + 1) seen m w
  | item {left : Nat} {seen : List Ref} {l v w : Ref} {items : List Ref} :
      (g.view l).items? = some items → l ∉ seen → v ∈ items.take maxItems →
      CategoryValue g left (l :: seen) v w → CategoryValue g (left + 1) seen l w

/-! ## Values written as a text -/

/-- A value that lies inside nested lists, and is no list itself. -/
def Innermost (g : ObjectGraph Ref) (w v : Ref) : Prop :=
  Relation.ReflTransGen (ListItem g) w v ∧ (g.view w).items? = none

/-- What is written as a text of a value under a key. -/
def WrittenUnder (g : ObjectGraph Ref) : KeyClass → Ref → Ref → Prop
  | .identifier _, v, w => ListItem g w v ∨ w = v ∧ (g.view v).items? = none
  | .hash, v, w => w = v
  | .category, v, w => Innermost g w v
  | _, _, _ => False

/-- The key that the items of a list are sanitized by. -/
def listKey : Option String → String
  | none => ""
  | some raw => canonicalKey (strip raw)

/-- What is written as a text of an item of a list. -/
def WrittenItem (g : ObjectGraph Ref) (key : String) (v : Ref) : Prop :=
  (g.view v).isMapping = false ∧ (g.view v).items? = none ∧ (key = "loc" ∨ key = "categories")

/-- A value the redactor writes as a text inside a container with `left` levels to go. -/
inductive Written (g : ObjectGraph Ref) : Nat → List Ref → String → Ref → Ref → Prop where
  | here {left : Nat} {seen : List Ref} {key : String} {m v w : Ref}
      {items : List (Option String × Ref)} {k : Option String} : g.view m = .mapping items → m ∉ seen →
      (k, v) ∈ items.take maxItems → WrittenUnder g (itemClass k) v w →
      Written g (left + 1) seen key m w
  | field {left : Nat} {seen : List Ref} {key : String} {m v w : Ref}
      {items : List (Option String × Ref)} {k : Option String} : g.view m = .mapping items → m ∉ seen →
      (k, v) ∈ items.take maxItems →
      itemClass k = .container ∨ itemClass k = .binary ∧ (g.view v).isMapping = true →
      Written g left (m :: seen) (listKey k) v w → Written g (left + 1) seen key m w
  | element {left : Nat} {seen : List Ref} {key : String} {l v : Ref} {items : List Ref} :
      (g.view l).items? = some items → l ∉ seen → v ∈ items.take maxItems → WrittenItem g key v →
      Written g (left + 1) seen key l v
  | item {left : Nat} {seen : List Ref} {key : String} {l v w : Ref} {items : List Ref} :
      (g.view l).items? = some items → l ∉ seen → v ∈ items.take maxItems →
      Written g left (l :: seen) key v w → Written g (left + 1) seen key l w

section Returns

variable {g : ObjectGraph Ref} {limit left : Nat} {seen : List Ref} {r : Ref} {nested : Nested Ref}
  {key : String} [DecidableEq Ref]

theorem isSome_sanitizeIdentifier {forceOpaque : Bool} :
    (sanitizeIdentifier platform t g forceOpaque r).isSome ↔ (g.str t.reprLimit r).isSome := by
  unfold sanitizeIdentifier
  cases g.str t.reprLimit r <;> simp

theorem isSome_sanitizeIdentifierValue {external : Bool} :
    (sanitizeIdentifierValue platform t g external r).isSome ↔
      ∀ w, WrittenUnder g (.identifier external) r w → (g.str t.reprLimit w).isSome := by
  unfold sanitizeIdentifierValue
  cases hitems : (g.view r).items? with
  | none => simp [WrittenUnder, ListItem, hitems, isSome_sanitizeIdentifier]
  | some items =>
    rw [Option.isSome_map, isSome_mapM]
    simp [WrittenUnder, ListItem, hitems, isSome_sanitizeIdentifier]

theorem isSome_sanitizeHash :
    (sanitizeHash platform t g r).isSome ↔ (g.str t.reprLimit r).isSome := by
  unfold sanitizeHash
  cases g.str t.reprLimit r <;> simp

theorem isSome_categoryOf : (categoryOf t g r).isSome ↔ (g.str t.reprLimit r).isSome := by
  unfold categoryOf
  cases hview : g.view r with
  | none =>
    have hleaf : (g.view r).parts? = none := by rw [hview]; rfl
    simp [ObjectGraph.str_of_leaf hleaf t.reprLimit, ObjectGraph.text, hview]
  | _ => cases g.str t.reprLimit r <;> simp

omit [DecidableEq Ref] in
/-- The innermost values of a list are those of its items. -/
theorem innermost_list {items : List Ref} (hitems : (g.view r).items? = some items) {w : Ref} :
    Innermost g w r ↔ ∃ item, ListItem g item r ∧ Innermost g w item := by
  constructor
  · rintro ⟨hpath, hnone⟩
    rcases Relation.ReflTransGen.cases_tail hpath with rfl | ⟨item, hrest, hitem⟩
    · rw [hitems] at hnone
      cases hnone
    · exact ⟨item, hitem, hrest, hnone⟩
  · rintro ⟨item, hitem, hpath, hnone⟩
    exact ⟨hpath.tail hitem, hnone⟩

omit [DecidableEq Ref] in
/-- A value that is no list is its own innermost value. -/
theorem innermost_scalar (hnone : (g.view r).items? = none) {w : Ref} : Innermost g w r ↔ w = r := by
  constructor
  · rintro ⟨hpath, -⟩
    rcases Relation.ReflTransGen.cases_tail hpath with rfl | ⟨item, -, items, hitems, -⟩
    · rfl
    · rw [hnone] at hitems
      cases hitems
  · rintro rfl
    exact ⟨.refl, hnone⟩

omit [DecidableEq Ref] in
theorem unrollsWithin_scalar (hnone : (g.view r).items? = none) (n : Nat) :
    UnrollsWithin g (n + 1) r := by
  rintro item ⟨items, hitems, -⟩
  rw [hnone] at hitems
  cases hitems

theorem isSome_sanitizeCategoryValue :
    (sanitizeCategoryValue t g limit r).isSome ↔
      UnrollsWithin g limit r ∧ ∀ w, Innermost g w r → (g.str t.reprLimit w).isSome := by
  induction limit generalizing r with
  | zero => simp [sanitizeCategoryValue, UnrollsWithin]
  | succ limit ih =>
    have hlist : ∀ {items : List Ref}, (g.view r).items? = some items →
        (((items.take maxItems).mapM (sanitizeCategoryValue t g limit)).isSome ↔
          UnrollsWithin g (limit + 1) r ∧ ∀ w, Innermost g w r → (g.str t.reprLimit w).isSome) := by
      intro items hitems
      rw [isSome_mapM]
      have hitem : ∀ item, ListItem g item r ↔ item ∈ items.take maxItems := by
        simp [ListItem, hitems]
      simp only [ih, UnrollsWithin, innermost_list hitems, hitem]
      constructor
      · intro h
        exact ⟨fun item hmem => (h item hmem).1, fun w ⟨item, hmem, hw⟩ => (h item hmem).2 w hw⟩
      · rintro ⟨hunrolls, hwritten⟩ item hmem
        exact ⟨hunrolls item hmem, fun w hw => hwritten w ⟨item, hmem, hw⟩⟩
    have hscalar : (g.view r).items? = none → ((categoryOf t g r).isSome ↔
        UnrollsWithin g (limit + 1) r ∧ ∀ w, Innermost g w r → (g.str t.reprLimit w).isSome) := by
      intro hnone
      simp [isSome_categoryOf, unrollsWithin_scalar hnone, innermost_scalar hnone]
    unfold sanitizeCategoryValue
    cases hview : g.view r with
    | bool b =>
      have hleaf : (g.view r).parts? = none := by rw [hview]; rfl
      have hnone : (g.view r).items? = none := by rw [hview]; rfl
      simp [unrollsWithin_scalar hnone, innermost_scalar hnone, ObjectGraph.str_of_leaf hleaf t.reprLimit, ObjectGraph.text, hview]
    | list items => simpa using hlist (by rw [hview]; rfl)
    | tuple items => simpa using hlist (by rw [hview]; rfl)
    | _ => exact hscalar (by rw [hview]; rfl)

/-- The category values inside an object unroll, and what is written as a text can be. -/
def Passes (t : PrivacyTables) (g : ObjectGraph Ref) (limit left : Nat) (seen : List Ref) (key : String)
    (r : Ref) : Prop :=
  (∀ w, CategoryValue g left seen r w → UnrollsWithin g limit w) ∧
    ∀ w, Written g left seen key r w → (g.str t.reprLimit w).isSome

/-- When a round of the loop over a mapping returns. -/
structure ItemReturns (t : PrivacyTables) (g : ObjectGraph Ref) (limit : Nat) (inner : String → Ref → Prop)
    (item : Option String × Ref) : Prop where
  unrolls : itemClass item.1 = .category → UnrollsWithin g limit item.2
  written : ∀ w, WrittenUnder g (itemClass item.1) item.2 w → (g.str t.reprLimit w).isSome
  inner : itemClass item.1 = .container ∨ itemClass item.1 = .binary ∧ (g.view item.2).isMapping = true →
    inner (listKey item.1) item.2

/-- When a round of the loop over a list returns. -/
structure ElementReturns (t : PrivacyTables) (g : ObjectGraph Ref) (inner : String → Ref → Prop)
    (key : String) (r : Ref) : Prop where
  written : WrittenItem g key r → (g.str t.reprLimit r).isSome
  inner : inner key r

/-- When what lies inside a container returns. -/
structure Nested.ReturnsIff (g : ObjectGraph Ref) (nested : Nested Ref) (inner : String → Ref → Prop) :
    Prop where
  mapping : ∀ key r, (g.view r).isMapping = true → ((nested.mapping r).isSome ↔ inner key r)
  list : ∀ key r, (g.view r).isMapping = false → ((nested.list key r).isSome ↔ inner key r)

variable {inner : String → Ref → Prop}

omit [DecidableEq Ref] in
theorem Nested.ReturnsIff.container (h : nested.ReturnsIff g inner) (key : String) (r : Ref) :
    (nested.container g key r).isSome ↔ inner key r := by
  unfold Nested.container
  split_ifs with hmapping
  · exact h.mapping key r hmapping
  · exact h.list key r (by simpa using hmapping)

theorem isSome_sanitizeField (h : nested.ReturnsIff g inner) (output : Members) (key : String) (r : Ref) :
    (sanitizeField platform t g limit nested output key r).isSome ↔
      (classify (canonicalKey key) = .category → UnrollsWithin g limit r) ∧
      (∀ w, WrittenUnder g (classify (canonicalKey key)) r w → (g.str t.reprLimit w).isSome) ∧
      (classify (canonicalKey key) = .container ∨
        classify (canonicalKey key) = .binary ∧ (g.view r).isMapping = true →
          inner (canonicalKey key) r) := by
  unfold sanitizeField
  cases hclass : classify (canonicalKey key) with
  | metric => cases hmetric : sanitizeMetric (g.view r) <;> simp [WrittenUnder]
  | identifier external =>
    simp only [reduceCtorEq, false_implies, false_and, or_self, true_and, and_true]
    have hsome : (sanitizeIdentifierValue platform t g external r).isSome ↔ _ :=
      isSome_sanitizeIdentifierValue
    rw [← hsome]
    cases hvalue : sanitizeIdentifierValue platform t g external r <;> simp
  | hash =>
    simp only [reduceCtorEq, false_implies, false_and, or_self, true_and, and_true, WrittenUnder,
      forall_eq]
    have hsome : (sanitizeHash platform t g r).isSome ↔ _ := isSome_sanitizeHash
    rw [← hsome]
    cases hvalue : sanitizeHash platform t g r <;> simp
  | category =>
    simp only [reduceCtorEq, forall_const, false_implies, false_and, or_self, and_true, WrittenUnder]
    have hsome : (sanitizeCategoryValue t g limit r).isSome ↔ _ := isSome_sanitizeCategoryValue
    rw [← hsome]
    cases hvalue : sanitizeCategoryValue t g limit r <;> simp
  | container =>
    simp only [reduceCtorEq, false_implies, true_or, forall_const, true_and, WrittenUnder]
    rw [← h.container (canonicalKey key) r]
    cases hvalue : nested.container g (canonicalKey key) r <;> simp
  | sensitive => simp [WrittenUnder]
  | binary =>
    by_cases hmapping : (g.view r).isMapping = true
    · simp only [hmapping, reduceCtorEq, false_implies, true_and, false_or, forall_const, WrittenUnder]
      rw [← h.mapping (canonicalKey key) r hmapping]
      cases hvalue : nested.mapping r <;> simp
    · simp [hmapping, WrittenUnder]
  | unknown => simp [WrittenUnder]

theorem isSome_sanitizeItem (h : nested.ReturnsIff g inner) (output : Members)
    (item : Option String × Ref) :
    (sanitizeItem platform t g limit nested output item).isSome ↔ ItemReturns t g limit inner item := by
  obtain ⟨key, r⟩ := item
  have hsplit : ItemReturns t g limit inner (key, r) ↔
      (itemClass key = .category → UnrollsWithin g limit r) ∧
      (∀ w, WrittenUnder g (itemClass key) r w → (g.str t.reprLimit w).isSome) ∧
      (itemClass key = .container ∨ itemClass key = .binary ∧ (g.view r).isMapping = true →
        inner (listKey key) r) :=
    ⟨fun h => ⟨h.unrolls, h.written, h.inner⟩, fun h => ⟨h.1, h.2.1, h.2.2⟩⟩
  rw [hsplit]
  unfold sanitizeItem itemClass listKey
  cases key with
  | none => simp [WrittenUnder]
  | some raw =>
    simp only
    split_ifs
    · exact isSome_sanitizeField h output (strip raw) r
    · simp [WrittenUnder]

theorem isSome_sanitizeListItem (h : nested.ReturnsIff g inner)
    (hscalar : ∀ key r, (g.view r).isMapping = false → (g.view r).items? = none → inner key r)
    (key : String) (r : Ref) :
    (sanitizeListItem platform t g (limit + 1) nested key r).isSome ↔ ElementReturns t g inner key r := by
  have hsplit : ElementReturns t g inner key r ↔
      (WrittenItem g key r → (g.str t.reprLimit r).isSome) ∧ inner key r :=
    ⟨fun h => ⟨h.written, h.inner⟩, fun h => ⟨h.1, h.2⟩⟩
  rw [hsplit]
  unfold sanitizeListItem
  split_ifs with hmapping hlist hloc hcategories
  · simp [WrittenItem, hmapping, h.mapping key r hmapping]
  · have hitems : (g.view r).items? ≠ none := Option.isSome_iff_ne_none.mp hlist
    simp [WrittenItem, hitems, h.list key r (by simpa using hmapping)]
  all_goals
    have hmapping' : (g.view r).isMapping = false := by simpa using hmapping
    have hnone : (g.view r).items? = none := by simpa using hlist
    have hinner := hscalar key r hmapping' hnone
  · subst hloc
    rw [isSome_sanitizeIdentifierValue]
    simp [WrittenUnder, WrittenItem, ListItem, hmapping', hnone, hinner]
  · subst hcategories
    rw [isSome_sanitizeCategoryValue]
    simp [WrittenItem, unrollsWithin_scalar hnone, hmapping', hnone, hinner, innermost_scalar hnone]
  · have hnot : ¬ WrittenItem g key r := fun hw => hw.2.2.elim hloc hcategories
    split <;> simp [hnot, hinner]

omit [DecidableEq Ref] in
theorem not_categoryValue_scalar {w : Ref} (hmapping : (g.view r).isMapping = false)
    (hlist : (g.view r).items? = none) : ¬ CategoryValue g left seen r w := by
  intro h
  cases h with
  | here hview => simp [hview, View.isMapping] at hmapping
  | field hview => simp [hview, View.isMapping] at hmapping
  | item hitems => simp [hitems] at hlist

omit [DecidableEq Ref] in
theorem not_written_scalar {w : Ref} (hmapping : (g.view r).isMapping = false)
    (hlist : (g.view r).items? = none) : ¬ Written g left seen key r w := by
  intro h
  cases h with
  | here hview => simp [hview, View.isMapping] at hmapping
  | field hview => simp [hview, View.isMapping] at hmapping
  | element hitems => simp [hitems] at hlist
  | item hitems => simp [hitems] at hlist

theorem isSome_mappingBody (h : nested.ReturnsIff g inner) (items : List (Option String × Ref)) :
    (mappingBody platform t g limit nested items).isSome ↔
      ∀ item ∈ items.take maxItems, ItemReturns t g limit inner item := by
  rw [← isSome_foldlM (fun output item _ => isSome_sanitizeItem h output item) []]
  unfold mappingBody
  cases (items.take maxItems).foldlM (sanitizeItem platform t g limit nested) [] <;> simp

theorem isSome_listBody (h : nested.ReturnsIff g inner)
    (hscalar : ∀ key r, (g.view r).isMapping = false → (g.view r).items? = none → inner key r)
    (key : String) (items : List Ref) :
    (listBody platform t g (limit + 1) nested key items).isSome ↔
      ∀ item ∈ items.take maxItems, ElementReturns t g inner key item := by
  have hloop : ((items.take maxItems).mapM
      (sanitizeListItem platform t g (limit + 1) nested key)).isSome ↔
        ∀ item ∈ items.take maxItems, ElementReturns t g inner key item := by
    rw [isSome_mapM]
    exact forall₂_congr fun item _ => isSome_sanitizeListItem h hscalar key item
  rw [← hloop]
  unfold listBody
  cases (items.take maxItems).mapM (sanitizeListItem platform t g (limit + 1) nested key) <;> simp

theorem passes_scalar (key : String) (r : Ref) (hmapping : (g.view r).isMapping = false)
    (hlist : (g.view r).items? = none) : Passes t g limit left seen key r :=
  ⟨fun _ hw => absurd hw (not_categoryValue_scalar hmapping hlist),
    fun _ hw => absurd hw (not_written_scalar hmapping hlist)⟩

/-- A container inside itself is cut. -/
theorem passes_of_mem (h : r ∈ seen) : Passes t g limit left seen key r := by
  refine ⟨fun w hw => ?_, fun w hw => ?_⟩
  · cases hw with
    | here _ hnot => exact absurd h hnot
    | field _ hnot => exact absurd h hnot
    | item _ hnot => exact absurd h hnot
  · cases hw with
    | here _ hnot => exact absurd h hnot
    | field _ hnot => exact absurd h hnot
    | element _ hnot => exact absurd h hnot
    | item _ hnot => exact absurd h hnot

theorem passes_mapping {items : List (Option String × Ref)} (hview : g.view r = .mapping items)
    (hseen : r ∉ seen) : Passes t g limit (left + 1) seen key r ↔
      ∀ item ∈ items.take maxItems, ItemReturns t g limit (Passes t g limit left (r :: seen)) item := by
  constructor
  · rintro ⟨hunrolls, hwritten⟩ ⟨k, v⟩ hmem
    exact {
      unrolls := fun hclass => hunrolls v (.here hview hseen hmem hclass)
      written := fun w hw => hwritten w (.here hview hseen hmem hw)
      inner := fun hclass => ⟨fun w hw => hunrolls w (.field hview hseen hmem hclass hw),
        fun w hw => hwritten w (.field hview hseen hmem hclass hw)⟩ }
  · intro h
    refine ⟨fun w hw => ?_, fun w hw => ?_⟩
    · cases hw with
      | here hview' _ hmem hclass =>
        cases hview.symm.trans hview'
        exact (h _ hmem).unrolls hclass
      | field hview' _ hmem hclass hw =>
        cases hview.symm.trans hview'
        exact ((h _ hmem).inner hclass).1 w hw
      | item hitems => simp [hview, View.items?] at hitems
    · cases hw with
      | here hview' _ hmem hw =>
        cases hview.symm.trans hview'
        exact (h _ hmem).written w hw
      | field hview' _ hmem hclass hw =>
        cases hview.symm.trans hview'
        exact ((h _ hmem).inner hclass).2 w hw
      | element hitems => simp [hview, View.items?] at hitems
      | item hitems => simp [hview, View.items?] at hitems

theorem passes_list {items : List Ref} (hitems : (g.view r).items? = some items) (hseen : r ∉ seen) :
    Passes t g limit (left + 1) seen key r ↔
      ∀ item ∈ items.take maxItems, ElementReturns t g (Passes t g limit left (r :: seen)) key item := by
  constructor
  · rintro ⟨hunrolls, hwritten⟩ item hmem
    exact {
      written := fun hw => hwritten item (.element hitems hseen hmem hw)
      inner := ⟨fun w hw => hunrolls w (.item hitems hseen hmem hw),
        fun w hw => hwritten w (.item hitems hseen hmem hw)⟩ }
  · intro h
    refine ⟨fun w hw => ?_, fun w hw => ?_⟩
    · cases hw with
      | here hview => simp [hview, View.items?] at hitems
      | field hview => simp [hview, View.items?] at hitems
      | item hitems' _ hmem hw =>
        cases hitems.symm.trans hitems'
        exact (h _ hmem).inner.1 w hw
    · cases hw with
      | here hview => simp [hview, View.items?] at hitems
      | field hview => simp [hview, View.items?] at hitems
      | element hitems' _ hmem hw =>
        cases hitems.symm.trans hitems'
        exact (h _ hmem).written hw
      | item hitems' _ hmem hw =>
        cases hitems.symm.trans hitems'
        exact (h _ hmem).inner.2 w hw

/-- A level of the redactor returns for the objects that pass. -/
theorem returnsIff_below (left : Nat) (seen : List Ref) :
    (below platform t g (limit + 1) left seen).ReturnsIff g (Passes t g (limit + 1) left seen) := by
  induction left generalizing seen with
  | zero =>
    have hzero : ∀ key r, Passes t g (limit + 1) 0 seen key r := by
      intro key r
      constructor
      · intro w hw
        cases hw
      · intro w hw
        cases hw
    constructor
    · intro key r _
      simp [below, sanitizeMapping, hzero key r]
    · intro key r _
      simp [below, sanitizeList, hzero key r]
  | succ left ih =>
    constructor
    · intro key r hmapping
      obtain ⟨items, hview⟩ : ∃ items, g.view r = .mapping items := by
        cases hview : g.view r <;> simp [hview, View.isMapping] at hmapping
        exact ⟨_, rfl⟩
      change (sanitizeMapping platform t g (limit + 1) (left + 1) seen r).isSome ↔ _
      unfold sanitizeMapping
      rw [hview]
      simp only
      split_ifs with hseen
      · simp [passes_of_mem hseen]
      · rw [passes_mapping hview hseen]
        exact isSome_mappingBody (ih (r :: seen)) items
    · intro key r hmapping
      change (sanitizeList platform t g (limit + 1) key (left + 1) seen r).isSome ↔ _
      unfold sanitizeList
      cases hitems : (g.view r).items? with
      | none => simp [passes_scalar key r hmapping hitems]
      | some items =>
        simp only
        split_ifs with hseen
        · simp [passes_of_mem hseen]
        · rw [passes_list hitems hseen]
          exact isSome_listBody (ih (r :: seen)) passes_scalar key items

/-- The redactor returns when the category values it finds unroll within the recursion limit, and what it
writes as a text can be. -/
theorem isSome_redactTraceMapping (key : String) (hmapping : (g.view r).isMapping = true) :
    (redactTraceMapping platform t g (limit + 1) r).isSome ↔
      Passes t g (limit + 1) (maxDepth + 1) [] key r := by
  rw [redactTraceMapping, if_pos hmapping]
  exact (returnsIff_below (maxDepth + 1) []).mapping key r hmapping

end Returns

/-! ## Recursion limits -/

section Limits

variable {g : ObjectGraph Ref} {r : Ref}

theorem UnrollsWithin.succ {n : Nat} (h : UnrollsWithin g n r) : UnrollsWithin g (n + 1) r := by
  induction n generalizing r with
  | zero => cases h
  | succ n ih => exact fun item hitem => ih (h item hitem)

theorem UnrollsWithin.mono {m n : Nat} (h : UnrollsWithin g m r) (hle : m ≤ n) : UnrollsWithin g n r := by
  induction hle with
  | refl => exact h
  | step _ ih => exact ih.succ

variable [DecidableEq Ref]

end Limits

/-! ## Sensitive keys -/

/-- Two texts with the features the redactor keeps of a text under a sensitive key. -/
structure SameFeatures (platform : Platform) (u : Unicode) (s s' : String) : Prop where
  length : s.length = s'.length
  sha256 : platform.sha256 s = platform.sha256 s'
  url : hasUrl u s = hasUrl u s'
  marker : (s = redacted ∨ s = redactedUrl) ↔ (s' = redacted ∨ s' = redactedUrl)

/-- The same item, or two texts with the same features under a sensitive key. -/
def SameItem (platform : Platform) (u : Unicode) (g g' : ObjectGraph Ref)
    (a b : Option String × Ref) : Prop :=
  a.1 = b.1 ∧ (a.2 = b.2 ∨ itemClass a.1 = .sensitive ∧ ∃ s s', g.view a.2 = .str s ∧
    g'.view b.2 = .str s' ∧ SameFeatures platform u s s')

inductive SameView (platform : Platform) (u : Unicode) (g g' : ObjectGraph Ref) :
    View Ref → View Ref → Prop where
  | same (v : View Ref) : v.isMapping = false → SameView platform u g g' v v
  | mapping {items items' : List (Option String × Ref)} :
      List.Forall₂ (SameItem platform u g g') items items' →
        SameView platform u g g' (.mapping items) (.mapping items')

/-- An object the redactor may write out as a whole: it is no container, or it is the value of an
identifier, hash or category key, or inside a list that is. -/
inductive Printed (g : ObjectGraph Ref) : Ref → Prop where
  | leaf {r : Ref} : (g.view r).isMapping = false → (g.view r).items? = none → Printed g r
  | value {m r : Ref} {items : List (Option String × Ref)} {key : Option String} :
      g.view m = .mapping items → (key, r) ∈ items →
      itemClass key = .hash ∨ itemClass key = .category ∨
        (∃ external, itemClass key = .identifier external) → Printed g r
  | item {l r : Ref} {items : List Ref} : Printed g l → (g.view l).items? = some items → r ∈ items →
      Printed g r

/-- Two graphs that differ in texts under sensitive keys only, in nothing the redactor keeps of them. -/
structure SameBoundary (platform : Platform) (u : Unicode) (g g' : ObjectGraph Ref) : Prop where
  view : ∀ r, SameView platform u g g' (g.view r) (g'.view r)
  repr : ∀ r, Printed g r → g.repr r = g'.repr r

section Interference

variable {u : Unicode} {g g' : ObjectGraph Ref} {limit left : Nat} {seen : List Ref} {r : Ref}
  {nested : Nested Ref} {v v' : View Ref}

theorem SameView.isMapping (h : SameView platform u g g' v v') : v.isMapping = v'.isMapping := by
  cases h <;> rfl

theorem SameView.items? (h : SameView platform u g g' v v') : v.items? = v'.items? := by
  cases h <;> rfl

theorem SameView.metric (h : SameView platform u g g' v v') : sanitizeMetric v = sanitizeMetric v' := by
  cases h <;> rfl

theorem SameView.eq (h : SameView platform u g g' v v') (hv : v.isMapping = false) : v = v' := by
  cases h with
  | same => rfl
  | mapping => cases hv

theorem SameBoundary.text (h : SameBoundary platform u g g') (hr : Printed g r) :
    g.text r = g'.text r := by
  have hrepr := h.repr r hr
  have hview := h.view r
  unfold ObjectGraph.text
  generalize g.view r = v at hview
  generalize g'.view r = v' at hview
  cases hview with
  | same v _ => cases v <;> first | rfl | exact hrepr
  | mapping _ => exact hrepr

theorem SameBoundary.storeRedacted (h : SameBoundary platform t.unicode g g') (output : Members)
    (key : String) (r : Ref) :
    storeRedacted platform t g output key r = storeRedacted platform t g' output key r := by
  have hview := h.view r
  unfold Privacy.storeRedacted
  generalize g.view r = v at hview
  generalize g'.view r = v' at hview
  cases hview with
  | same => rfl
  | mapping hitems => simp only [View.length?, hitems.length_eq]

/-- Under a sensitive key only the features of a text count. -/
theorem SameFeatures.storeRedacted {r' : Ref} {s s' : String} (hr : g.view r = .str s)
    (hr' : g'.view r' = .str s') (h : SameFeatures platform t.unicode s s') (output : Members)
    (key : String) :
    storeRedacted platform t g output key r = storeRedacted platform t g' output key r' := by
  unfold Privacy.storeRedacted
  rw [hr, hr']
  by_cases hs : s = redacted ∨ s = redactedUrl
  · have hs' := h.marker.mp hs
    simp only [if_pos hs, if_pos hs']
    have hne : redacted.length ≠ redactedUrl.length := by decide
    rcases hs with rfl | rfl <;> rcases hs' with rfl | rfl
    · rfl
    · exact absurd h.length hne
    · exact absurd h.length.symm hne
    · rfl
  · have hs' := fun hs' => hs (h.marker.mpr hs')
    simp only [if_neg hs, if_neg hs', h.length, h.sha256, h.url]

variable [DecidableEq Ref]

/-- Texts have nothing inside, so the two graphs nest alike. -/
theorem SameBoundary.nests (h : SameBoundary platform u g g') (n : Nat) (inside : List Ref) (r : Ref) :
    g.nests n inside r = g'.nests n inside r := by
  induction n generalizing inside r with
  | zero =>
    have hview := h.view r
    unfold ObjectGraph.nests
    generalize g.view r = v at hview
    generalize g'.view r = v' at hview
    cases hview <;> rfl
  | succ n ih =>
    have hinner : g.nests n (r :: inside) = g'.nests n (r :: inside) := funext (ih (r :: inside))
    have hview := h.view r
    unfold ObjectGraph.nests
    generalize g.view r = v at hview
    generalize g'.view r = v' at hview
    cases hview with
    | same => rw [hinner]
    | mapping hitems =>
      simp only [View.parts?, List.all_map, hinner]
      congr 1
      induction hitems with
      | nil => rfl
      | cons hitem _ ihitems =>
        rw [List.all_cons, List.all_cons, ihitems]
        congr 1
        obtain ⟨-, hsame | ⟨-, s, s', hs, hs', -⟩⟩ := hitem
        · exact congrArg (g'.nests n (r :: inside)) hsame
        · have hleaf := congrArg View.parts? hs
          have hleaf' := congrArg View.parts? hs'
          have hnests := ObjectGraph.nests_of_leaf hleaf n (r :: inside)
          rw [hinner] at hnests
          exact hnests.trans (ObjectGraph.nests_of_leaf hleaf' n (r :: inside)).symm

/-- An object that is printed prints the same. -/
theorem SameBoundary.str (h : SameBoundary platform u g g') (hr : Printed g r) (n : Nat) :
    g.str n r = g'.str n r := by
  rw [ObjectGraph.str, h.nests, h.text hr, ObjectGraph.str]

theorem SameBoundary.identifier (h : SameBoundary platform t.unicode g g') (hr : Printed g r)
    (forceOpaque : Bool) :
    sanitizeIdentifierValue platform t g forceOpaque r =
      sanitizeIdentifierValue platform t g' forceOpaque r := by
  unfold sanitizeIdentifierValue
  rw [← (h.view r).items?]
  have hone : ∀ r, Printed g r → sanitizeIdentifier platform t g forceOpaque r =
      sanitizeIdentifier platform t g' forceOpaque r := by
    intro r hr
    unfold sanitizeIdentifier
    rw [h.str hr]
  cases hitems : (g.view r).items? with
  | none => exact hone r hr
  | some items =>
    exact congrArg (Option.map Json.arr)
      (mapM_congr fun item hmem => hone item (.item hr hitems (List.mem_of_mem_take hmem)))

theorem SameBoundary.categoryValue (h : SameBoundary platform t.unicode g g') (hr : Printed g r) :
    sanitizeCategoryValue t g limit r = sanitizeCategoryValue t g' limit r := by
  induction limit generalizing r with
  | zero => rfl
  | succ limit ih =>
    have hstr := h.str hr t.reprLimit
    have hlist : ∀ items, (g.view r).items? = some items →
        (items.take maxItems).mapM (sanitizeCategoryValue t g limit) =
          (items.take maxItems).mapM (sanitizeCategoryValue t g' limit) := fun items hitems =>
      mapM_congr fun item hmem => ih (.item hr hitems (List.mem_of_mem_take hmem))
    have hview := h.view r
    unfold sanitizeCategoryValue categoryOf
    rw [← hstr]
    generalize g.view r = v at hview hlist
    generalize g'.view r = v' at hview
    cases hview with
    | same v _ => cases v <;> first | rfl | simp only [hlist _ rfl]
    | mapping _ => rfl

theorem SameBoundary.field (h : SameBoundary platform t.unicode g g') {key : String}
    (hr : classify (canonicalKey key) = .hash ∨ classify (canonicalKey key) = .category ∨
      (∃ external, classify (canonicalKey key) = .identifier external) → Printed g r)
    (output : Members) :
    sanitizeField platform t g limit nested output key r =
      sanitizeField platform t g' limit nested output key r := by
  have hmapping := (h.view r).isMapping
  unfold sanitizeField
  cases hclass : classify (canonicalKey key) with
  | metric => simp only [(h.view r).metric, h.storeRedacted]
  | identifier external =>
    have hprinted := hr (.inr (.inr ⟨external, hclass⟩))
    simp only [h.identifier hprinted]
  | hash =>
    have hprinted := hr (.inl hclass)
    simp only [sanitizeHash, h.str hprinted]
  | category =>
    have hprinted := hr (.inr (.inl hclass))
    simp only [h.categoryValue hprinted]
  | container => simp only [Nested.container, hmapping]
  | sensitive => simp only [h.storeRedacted]
  | binary => simp only [hmapping, h.storeRedacted]
  | unknown => rfl

/-- Items the boundary cannot tell apart are sanitized alike. -/
theorem SameBoundary.item (h : SameBoundary platform t.unicode g g') {m : Ref}
    {items : List (Option String × Ref)} (hm : g.view m = .mapping items) {a b : Option String × Ref}
    (ha : a ∈ items) (hab : SameItem platform t.unicode g g' a b) (output : Members) :
    sanitizeItem platform t g limit nested output a =
      sanitizeItem platform t g' limit nested output b := by
  obtain ⟨key, r⟩ := a
  obtain ⟨key', r'⟩ := b
  obtain ⟨rfl, hsame | ⟨hclass, s, s', hs, hs', hfeatures⟩⟩ := hab
  · obtain rfl : r = r' := hsame
    have hprinted := fun hclass => Printed.value hm ha hclass
    unfold sanitizeItem
    cases key with
    | none => rfl
    | some raw =>
      simp only [itemClass] at hprinted ⊢
      split_ifs with haccepted
      · simp only [haccepted, if_true] at hprinted
        exact h.field hprinted output
      · rfl
  · -- the key is sensitive, so the values are stored redacted
    unfold sanitizeItem
    cases key with
    | none => rfl
    | some raw =>
      simp only [itemClass] at hclass ⊢
      split_ifs with haccepted
      · simp only [haccepted, if_true] at hclass
        simp only [sanitizeField, hclass, hfeatures.storeRedacted hs hs']
      · rfl

theorem SameBoundary.mappingBody (h : SameBoundary platform t.unicode g g') {m : Ref}
    {items items' : List (Option String × Ref)} (hm : g.view m = .mapping items)
    (hitems : List.Forall₂ (SameItem platform t.unicode g g') items items') :
    mappingBody platform t g limit nested items = mappingBody platform t g' limit nested items' := by
  have hitem : ∀ output, ∀ a ∈ items.take maxItems, ∀ b, SameItem platform t.unicode g g' a b →
      sanitizeItem platform t g limit nested output a = sanitizeItem platform t g' limit nested output b :=
    fun output a ha b hab => h.item hm (List.mem_of_mem_take ha) hab output
  have hfold := foldlM_congr (List.forall₂_take maxItems hitems) hitem []
  unfold Privacy.mappingBody
  rw [hitems.length_eq, hfold]

theorem SameBoundary.listItem (h : SameBoundary platform t.unicode g g') (key : String) (r : Ref) :
    sanitizeListItem platform t g limit nested key r =
      sanitizeListItem platform t g' limit nested key r := by
  unfold sanitizeListItem
  rw [← (h.view r).isMapping, ← (h.view r).items?]
  split_ifs with hmapping hlist
  · rfl
  · rfl
  · have hprinted : Printed g r := .leaf (by simpa using hmapping) (by simpa using hlist)
    exact h.identifier hprinted false
  · have hprinted : Printed g r := .leaf (by simpa using hmapping) (by simpa using hlist)
    exact h.categoryValue hprinted
  · rw [(h.view r).eq (by simpa using hmapping)]

/-- Each level of the redactor treats the two graphs alike. -/
theorem SameBoundary.below (h : SameBoundary platform t.unicode g g') (left : Nat) (seen : List Ref) :
    below platform t g limit left seen = below platform t g' limit left seen := by
  induction left generalizing seen with
  | zero => rfl
  | succ left ih =>
    have hmapping : ∀ r, sanitizeMapping platform t g limit (left + 1) seen r =
        sanitizeMapping platform t g' limit (left + 1) seen r := by
      intro r
      have hinner := ih (r :: seen)
      unfold Privacy.below at hinner
      have hview := h.view r
      unfold sanitizeMapping
      rw [hinner]
      cases hv : g.view r with
      | mapping items =>
        rw [hv] at hview
        generalize g'.view r = v' at hview
        cases hview with
        | same _ hnot => cases hnot
        | mapping hitems => simp only [h.mappingBody hv hitems]
      | _ =>
        rw [hv] at hview
        rw [← hview.eq rfl]
    have hlist : ∀ key r, sanitizeList platform t g limit key (left + 1) seen r =
        sanitizeList platform t g' limit key (left + 1) seen r := by
      intro key r
      have hinner := ih (r :: seen)
      unfold Privacy.below at hinner
      unfold sanitizeList
      rw [hinner, ← (h.view r).items?]
      cases (g.view r).items? with
      | none => rfl
      | some items =>
        simp only [listBody, mapM_congr fun item (_ : item ∈ items.take maxItems) => h.listItem key item]
    unfold Privacy.below
    rw [funext hmapping, funext fun key => funext (hlist key)]

/-- The output depends on a text under a sensitive key through its features only. -/
theorem SameBoundary.redact (h : SameBoundary platform t.unicode g g') (r : Ref) :
    redactTraceMapping platform t g limit r = redactTraceMapping platform t g' limit r := by
  unfold redactTraceMapping
  rw [← (h.view r).isMapping]
  have hbelow : sanitizeMapping platform t g limit (maxDepth + 1) [] =
      sanitizeMapping platform t g' limit (maxDepth + 1) [] :=
    congrArg Nested.mapping (h.below (maxDepth + 1) [])
  rw [hbelow]

end Interference

def PrivacyTables.sample : PrivacyTables := ⟨.ascii, fun _ => .zero, fun _ => some "[]", 100⟩

end Privacy

end PersonalAssistant
