import Mathlib.Algebra.GroupWithZero.Nat
import Mathlib.Data.List.Nodup
import Mathlib.Data.List.Basic
import Mathlib.Data.Prod.Basic

/-!
# Insertion-ordered finite maps

A `Dict` is a list of key/value pairs without repeated keys. Writing an existing key replaces its
value where it stands; writing a new key appends it. Iteration follows the list, so a loop over the
map sees the oldest key first. Absent keys read as `none`.
-/
namespace Lib

/-- A finite map that remembers the order in which its keys were first written. -/
structure Dict (κ ν : Type) where
  entries : List (κ × ν)
  nodup : (entries.map Prod.fst).Nodup
deriving DecidableEq

namespace Dict

variable {κ ν : Type}

def empty : Dict κ ν := ⟨[], List.nodup_nil⟩

instance : Inhabited (Dict κ ν) := ⟨empty⟩

def values (d : Dict κ ν) : List ν := d.entries.map Prod.snd

@[ext] theorem ext {d d' : Dict κ ν} (h : d.entries = d'.entries) : d = d' := by
  cases d; cases d'; cases h; rfl

@[simp] theorem entries_empty : (empty : Dict κ ν).entries = [] := rfl

variable [DecidableEq κ]

def get? (d : Dict κ ν) (k : κ) : Option ν := d.entries.lookup k

/-- Replace the value of `k` in place, or append the pair when `k` is new. -/
def insertEntry (k : κ) (v : ν) : List (κ × ν) → List (κ × ν)
  | [] => [(k, v)]
  | e :: es => if e.1 = k then (k, v) :: es else e :: insertEntry k v es

theorem keys_insertEntry (k : κ) (v : ν) (es : List (κ × ν)) :
    (insertEntry k v es).map Prod.fst =
      if k ∈ es.map Prod.fst then es.map Prod.fst else es.map Prod.fst ++ [k] := by
  induction es with
  | nil => simp [insertEntry]
  | cons e es ih =>
    by_cases h : e.1 = k
    · simp [insertEntry, h]
    · have hk : ¬ k = e.1 := fun hk => h hk.symm
      simp only [insertEntry, h, if_false, List.map_cons, List.mem_cons, hk, false_or, ih]
      split_ifs <;> simp

theorem nodup_insertEntry (k : κ) (v : ν) {es : List (κ × ν)} (h : (es.map Prod.fst).Nodup) :
    ((insertEntry k v es).map Prod.fst).Nodup := by
  rw [keys_insertEntry]
  split_ifs with hk
  · exact h
  · exact h.append (List.nodup_singleton k) (List.disjoint_singleton.mpr hk)

theorem mem_insertEntry {k : κ} {v : ν} {es : List (κ × ν)} {e : κ × ν} (h : e ∈ insertEntry k v es) :
    e = (k, v) ∨ e ∈ es := by
  induction es with
  | nil => simpa [insertEntry] using h
  | cons e' es ih =>
    unfold insertEntry at h
    split_ifs at h
    · exact (List.mem_cons.mp h).imp_right (List.mem_cons_of_mem e')
    · rcases List.mem_cons.mp h with rfl | h
      · exact .inr List.mem_cons_self
      · exact (ih h).imp_right (List.mem_cons_of_mem e')

def set (d : Dict κ ν) (k : κ) (v : ν) : Dict κ ν :=
  ⟨insertEntry k v d.entries, nodup_insertEntry k v d.nodup⟩

@[simp] theorem get?_empty (k : κ) : (empty : Dict κ ν).get? k = none := rfl

theorem lookup_cons_ite (e : κ × ν) (es : List (κ × ν)) (j : κ) :
    (e :: es).lookup j = if j = e.1 then some e.2 else es.lookup j := by
  obtain ⟨k, v⟩ := e
  by_cases h : j = k
  · simp [h]
  · have hb : (j == k) = false := beq_eq_false_iff_ne.mpr h
    simp [List.lookup_cons, h, hb]

theorem lookup_insertEntry (k : κ) (v : ν) (es : List (κ × ν)) (j : κ) :
    (insertEntry k v es).lookup j = if j = k then some v else es.lookup j := by
  induction es with
  | nil => simp [insertEntry, lookup_cons_ite]
  | cons e es ih =>
    by_cases h : e.1 = k
    · simp only [insertEntry, h, if_true, lookup_cons_ite]
      split_ifs <;> rfl
    · simp only [insertEntry, h, if_false, lookup_cons_ite, ih]
      split_ifs with h₁ h₂
      · exact absurd (h₁.symm.trans h₂) h
      all_goals rfl

@[simp] theorem get?_set (d : Dict κ ν) (k j : κ) (v : ν) :
    (d.set k v).get? j = if j = k then some v else d.get? j :=
  lookup_insertEntry k v d.entries j

theorem get?_set_self (d : Dict κ ν) (k : κ) (v : ν) : (d.set k v).get? k = some v := by simp

theorem get?_set_of_ne (d : Dict κ ν) {k j : κ} (v : ν) (h : j ≠ k) :
    (d.set k v).get? j = d.get? j := by simp [h]

theorem lookup_eq_some_iff {es : List (κ × ν)} (h : (es.map Prod.fst).Nodup) {k : κ} {v : ν} :
    es.lookup k = some v ↔ (k, v) ∈ es := by
  induction es with
  | nil => simp
  | cons e es ih =>
    simp only [List.map_cons, List.nodup_cons] at h
    rw [lookup_cons_ite]
    by_cases hk : k = e.1
    · subst hk
      have hne : (e.1, v) ∉ es := fun hm => h.1 (List.mem_map.mpr ⟨_, hm, rfl⟩)
      simp [hne, Prod.ext_iff, eq_comm]
    · have hne : (k, v) ≠ e := fun he => hk (congrArg Prod.fst he)
      simp [hk, ih h.2, hne]

/-- Reading a key finds exactly the pair the iteration visits. -/
theorem get?_eq_some_iff {d : Dict κ ν} {k : κ} {v : ν} :
    d.get? k = some v ↔ (k, v) ∈ d.entries := lookup_eq_some_iff d.nodup

theorem mem_entries {d : Dict κ ν} {e : κ × ν} : e ∈ d.entries ↔ d.get? e.1 = some e.2 :=
  get?_eq_some_iff.symm

theorem get?_eq_none_iff {d : Dict κ ν} {k : κ} :
    d.get? k = none ↔ k ∉ d.entries.map Prod.fst := by
  constructor
  · rintro h hk
    obtain ⟨e, he, rfl⟩ := List.mem_map.mp hk
    simp [mem_entries.mp he] at h
  · intro h
    cases hv : d.get? k with
    | none => rfl
    | some v => exact absurd (List.mem_map.mpr ⟨_, get?_eq_some_iff.mp hv, rfl⟩) h

theorem mem_values {d : Dict κ ν} {v : ν} : v ∈ d.values ↔ ∃ k, d.get? k = some v := by
  simp only [values, List.mem_map, get?_eq_some_iff]
  constructor
  · rintro ⟨e, he, rfl⟩; exact ⟨e.1, he⟩
  · rintro ⟨k, hk⟩; exact ⟨_, hk, rfl⟩

theorem filter_lookup {es : List (κ × ν)} (hn : (es.map Prod.fst).Nodup) {p : κ × ν → Bool} {k : κ}
    (h : ∀ e ∈ es, p e = true ↔ e.1 = k) : (es.filter p).map Prod.snd = (es.lookup k).toList := by
  induction es with
  | nil => rfl
  | cons e es ih =>
    simp only [List.map_cons, List.nodup_cons] at hn
    have ih := ih hn.2 fun e he => h e (List.mem_cons_of_mem _ he)
    have he := h e (by simp)
    rw [lookup_cons_ite]
    by_cases hk : k = e.1
    · have hnone : es.lookup k = none := by
        cases hl : es.lookup k with
        | none => rfl
        | some v =>
          have hmem := (lookup_eq_some_iff hn.2).mp hl
          exact absurd (List.mem_map.mpr ⟨_, hmem, hk⟩) hn.1
      rw [if_pos hk, List.filter_cons_of_pos (he.mpr hk.symm), List.map_cons, ih, hnone]
      rfl
    · rw [if_neg hk, List.filter_cons_of_neg fun hp => hk (he.mp hp).symm, ih]

/-- A filter that selects one key finds its value. -/
theorem filter_entries {d : Dict κ ν} {p : κ × ν → Bool} {k : κ}
    (h : ∀ e ∈ d.entries, p e = true ↔ e.1 = k) :
    (d.entries.filter p).map Prod.snd = (d.get? k).toList := filter_lookup d.nodup h

/-- A new key is appended behind all others. -/
theorem entries_set_of_get?_eq_none {d : Dict κ ν} {k : κ} (v : ν) (h : d.get? k = none) :
    (d.set k v).entries = d.entries ++ [(k, v)] := by
  have hk := get?_eq_none_iff.mp h
  change insertEntry k v d.entries = _
  clear h
  revert hk
  generalize d.entries = es
  induction es with
  | nil => simp [insertEntry]
  | cons e es ih =>
    intro hk
    simp only [List.map_cons, List.mem_cons, not_or] at hk
    have hne : e.1 ≠ k := fun he => hk.1 he.symm
    simp [insertEntry, hne, ih hk.2]

/-- Writing an existing key keeps every position and changes one value. -/
theorem entries_set_of_mem {d : Dict κ ν} {k : κ} (v : ν) (h : k ∈ d.entries.map Prod.fst) :
    (d.set k v).entries = d.entries.map fun e => if e.1 = k then (k, v) else e := by
  change insertEntry k v d.entries = _
  have hn := d.nodup
  revert h hn
  generalize d.entries = es
  induction es with
  | nil => simp
  | cons e es ih =>
    intro h hn
    simp only [List.map_cons, List.nodup_cons] at hn
    by_cases he : e.1 = k
    · have hrest : es.map (fun e => if e.1 = k then (k, v) else e) = es := by
        conv_rhs => rw [← List.map_id es]
        refine List.map_congr_left fun f hf => ?_
        have : f.1 ≠ k := fun hfk => hn.1 (by rw [he, ← hfk]; exact List.mem_map_of_mem hf)
        simp [this]
      simp [insertEntry, he, hrest]
    · have hm : k ∈ es.map Prod.fst := by
        rcases List.mem_cons.mp h with hk | hk
        · exact absurd hk.symm he
        · exact hk
      simp only [insertEntry, he, if_false, List.map_cons, ih hm hn.2]

/-- Writing the value a key already has changes nothing. -/
theorem set_of_get? {d : Dict κ ν} {k : κ} {v : ν} (h : d.get? k = some v) : d.set k v = d := by
  have hmem := get?_eq_some_iff.mp h
  refine ext ?_
  rw [entries_set_of_mem v (List.mem_map_of_mem hmem)]
  conv_rhs => rw [← List.map_id d.entries]
  refine List.map_congr_left fun e he => ?_
  split_ifs with hk
  · have hv := mem_entries.mp he
    rw [hk, h] at hv
    cases hv
    rw [← hk]
    rfl
  · rfl

/-- What writing a key does to the sum of all values. -/
theorem sum_values_set (d : Dict κ Nat) (k : κ) (v : Nat) :
    (d.set k v).values.sum + (d.get? k).getD 0 = d.values.sum + v := by
  change ((insertEntry k v d.entries).map Prod.snd).sum + (d.entries.lookup k).getD 0 =
    (d.entries.map Prod.snd).sum + v
  generalize d.entries = es
  induction es with
  | nil => simp [insertEntry]
  | cons e es ih =>
    rw [lookup_cons_ite, insertEntry]
    by_cases hk : e.1 = k
    · rw [if_pos hk, if_pos hk.symm]
      simp only [List.map_cons, List.sum_cons, Option.getD_some]
      omega
    · rw [if_neg hk, if_neg fun h => hk h.symm]
      simp only [List.map_cons, List.sum_cons]
      omega

/-! ### Writing many keys -/

/-- Of pairs written one after another, the last one with a key is read. -/
theorem get?_foldl_set (es : List (κ × ν)) (d : Dict κ ν) (k : κ) :
    (es.foldl (fun d e => d.set e.1 e.2) d).get? k = (es.reverse.lookup k).or (d.get? k) := by
  induction es generalizing d with
  | nil => simp
  | cons e es ih =>
    rw [List.foldl_cons, ih, get?_set, List.reverse_cons, List.lookup_append, lookup_cons_ite]
    split_ifs <;> cases es.reverse.lookup k <;> rfl

/-- The host's `d.update(other)`. -/
def update (d other : Dict κ ν) : Dict κ ν := other.entries.foldl (fun d e => d.set e.1 e.2) d

@[simp] theorem get?_update (d other : Dict κ ν) (k : κ) :
    (d.update other).get? k = (other.get? k).or (d.get? k) := by
  have hreverse : other.entries.reverse.lookup k = other.entries.lookup k := by
    have hnodup : (other.entries.reverse.map Prod.fst).Nodup := by
      rw [List.map_reverse]
      exact List.nodup_reverse.mpr other.nodup
    refine Option.ext fun v => ?_
    rw [lookup_eq_some_iff hnodup, lookup_eq_some_iff other.nodup, List.mem_reverse]
  rw [update, get?_foldl_set, hreverse]
  rfl

/-! ### Parts of a map -/

/-- The entries with `p`, in their order. -/
def restrict (d : Dict κ ν) (p : κ × ν → Bool) : Dict κ ν :=
  ⟨d.entries.filter p, (d.entries.filter_sublist.map Prod.fst).nodup d.nodup⟩

variable {p : κ × ν → Bool} {d : Dict κ ν} {k : κ} {v : ν}

omit [DecidableEq κ] in
@[simp] theorem entries_restrict (d : Dict κ ν) (p : κ × ν → Bool) :
    (d.restrict p).entries = d.entries.filter p := rfl

omit [DecidableEq κ] in
@[simp] theorem restrict_empty (p : κ × ν → Bool) : (empty : Dict κ ν).restrict p = empty := rfl

/-- A key whose entry belongs to the part is read there as in the whole map. -/
theorem get?_restrict (h : ∀ v, d.get? k = some v → p (k, v) = true) :
    (d.restrict p).get? k = d.get? k := by
  cases hv : d.get? k with
  | some v =>
    rw [get?_eq_some_iff] at hv ⊢
    exact List.mem_filter.mpr ⟨hv, h v (get?_eq_some_iff.mpr hv)⟩
  | none =>
    rw [get?_eq_none_iff] at hv ⊢
    intro hk
    obtain ⟨e, he, hek⟩ := List.mem_map.mp hk
    exact hv (List.mem_map.mpr ⟨e, List.mem_of_mem_filter he, hek⟩)

/-- Writing an entry that belongs to the part, and belonged to it before. -/
theorem restrict_set (hv : p (k, v) = true) (hold : ∀ old, d.get? k = some old → p (k, old) = true) :
    (d.set k v).restrict p = (d.restrict p).set k v := by
  have hentries : ∀ es : List (κ × ν), (∀ e ∈ es, e.1 = k → p e = true) →
      (insertEntry k v es).filter p = insertEntry k v (es.filter p) := by
    intro es hes
    induction es with
    | nil => simp [insertEntry, hv]
    | cons e es ih =>
      have ih := ih fun f hf => hes f (List.mem_cons_of_mem _ hf)
      by_cases hek : e.1 = k
      · have hpe := hes e (by simp) hek
        simp [insertEntry, hek, hv, hpe]
      · cases hpe : p e with
        | true => simp [insertEntry, hek, hpe, ih]
        | false => simp [insertEntry, hek, hpe, ih]
  refine ext (hentries d.entries fun e he hek => ?_)
  have hget := mem_entries.mp he
  rw [hek] at hget
  have hpair : e = (k, e.2) := Prod.ext hek rfl
  rw [hpair]
  exact hold e.2 hget

/-- Writing an entry outside the part, where none of the part stood. -/
theorem restrict_set_of_false (hv : p (k, v) = false)
    (hold : ∀ old, d.get? k = some old → p (k, old) = false) :
    (d.set k v).restrict p = d.restrict p := by
  have hentries : ∀ es : List (κ × ν), (∀ e ∈ es, e.1 = k → p e = false) →
      (insertEntry k v es).filter p = es.filter p := by
    intro es hes
    induction es with
    | nil => simp [insertEntry, hv]
    | cons e es ih =>
      have ih := ih fun f hf => hes f (List.mem_cons_of_mem _ hf)
      by_cases hek : e.1 = k
      · have hpe := hes e (by simp) hek
        simp [insertEntry, hek, hv, hpe]
      · simp only [insertEntry, hek, if_false, List.filter_cons, ih]
  refine ext (hentries d.entries fun e he hek => ?_)
  have hget := mem_entries.mp he
  rw [hek] at hget
  have hpair : e = (k, e.2) := Prod.ext hek rfl
  rw [hpair]
  exact hold e.2 hget

end Dict

section Part

variable {τ κ ν : Type} [DecidableEq τ] [DecidableEq κ]

/-- The entries of one partition. -/
def Dict.part (d : Dict (τ × κ) ν) (t : τ) : Dict (τ × κ) ν := d.restrict fun e => e.1.1 = t

variable {d : Dict (τ × κ) ν} {t u : τ} {k : κ}

omit [DecidableEq κ] in
@[simp] theorem Dict.part_empty (t : τ) : (.empty : Dict (τ × κ) ν).part t = .empty := rfl

omit [DecidableEq κ] in
theorem Dict.entries_part (d : Dict (τ × κ) ν) (t : τ) :
    (d.part t).entries = d.entries.filter fun e => e.1.1 = t := rfl

@[simp] theorem Dict.get?_part (d : Dict (τ × κ) ν) (t : τ) (k : κ) :
    (d.part t).get? (t, k) = d.get? (t, k) := Dict.get?_restrict (by simp)

@[simp] theorem Dict.part_set (d : Dict (τ × κ) ν) (t : τ) (k : κ) (v : ν) :
    (d.set (t, k) v).part t = (d.part t).set (t, k) v := Dict.restrict_set (by simp) (by simp)

theorem Dict.part_set_of_ne (h : t ≠ u) (k : κ) (v : ν) : (d.set (u, k) v).part t = d.part t :=
  Dict.restrict_set_of_false (by simpa using h.symm) (by simpa using fun _ _ => h.symm)

end Part

end Lib
