import Mathlib.Data.List.Infix
import Mathlib.Data.List.Nodup
import Mathlib.Data.List.Perm.Subperm
import Mathlib.Data.List.Range

/-!
# Fenced uses

A resource is used behind fences. Whoever wants to use it raises a fence with the next number, uses the
resource at most once under the label of that number, and reports the use back; then, or after somebody
has reopened the resource, the next fence may be raised. A log lists the events, the last one first.
`Legal` says that every event of a log was allowed when it happened. A legal log never has one label
used twice, numbers its fences from one on, and has a report or a reopening between any two of them.
-/
namespace Lib

variable {ι κ : Type} [DecidableEq ι]

inductive FenceEvent (ι κ : Type) where
  | fenced (resource : ι) (number : Nat)
  | used (resource : ι) (label : κ)
  | returned (resource : ι) (label : κ)
  | reopened (resource : ι)
deriving DecidableEq

namespace FenceEvent

/-- The number of a fence of `i`. -/
def fence? (i : ι) : FenceEvent ι κ → Option Nat
  | fenced j n => if j = i then some n else none
  | _ => none

/-- The label of a use of `i`. -/
def use? (i : ι) : FenceEvent ι κ → Option κ
  | used j l => if j = i then some l else none
  | _ => none

end FenceEvent

open FenceEvent

/-- The numbers of the fences of `i`, the last one first. -/
def fences (i : ι) (log : List (FenceEvent ι κ)) : List Nat := log.filterMap (fence? i)

/-- The labels `i` was used under, the last one first. -/
def uses (i : ι) (log : List (FenceEvent ι κ)) : List κ := log.filterMap (use? i)

/-- The events after the last fence of `i`. -/
def sinceFence (i : ι) (log : List (FenceEvent ι κ)) : List (FenceEvent ι κ) :=
  log.takeWhile fun e => (fence? i e).isNone

variable {label : ι → Nat → κ} {i j : ι} {n : Nat} {l : κ} {log newer older : List (FenceEvent ι κ)}
  {e : FenceEvent ι κ}

@[simp] theorem fences_nil : fences i ([] : List (FenceEvent ι κ)) = [] := rfl

@[simp] theorem fences_fenced : fences i (.fenced j n :: log) =
    if j = i then n :: fences i log else fences i log := by
  unfold fences
  split_ifs with h <;> simp [fence?, h]

@[simp] theorem fences_used : fences i (.used j l :: log) = fences i log := rfl
@[simp] theorem fences_returned : fences i (.returned j l :: log) = fences i log := rfl
@[simp] theorem fences_reopened : fences i (.reopened j :: log) = fences i log := rfl

@[simp] theorem uses_nil : uses i ([] : List (FenceEvent ι κ)) = [] := rfl

@[simp] theorem uses_used : uses i (.used j l :: log) =
    if j = i then l :: uses i log else uses i log := by
  unfold uses
  split_ifs with h <;> simp [use?, h]

@[simp] theorem uses_fenced : uses i (.fenced j n :: log) = uses i log := rfl
@[simp] theorem uses_returned : uses i (.returned j l :: log) = uses i log := rfl
@[simp] theorem uses_reopened : uses i (.reopened j :: log) = uses i log := rfl

theorem mem_fences : n ∈ fences i log ↔ .fenced i n ∈ log := by
  simp only [fences, List.mem_filterMap]
  constructor
  · rintro ⟨e, he, hn⟩
    cases e <;> simp only [fence?, Option.ite_none_right_eq_some, Option.some.injEq, reduceCtorEq] at hn
    obtain ⟨rfl, rfl⟩ := hn
    exact he
  · exact fun h => ⟨_, h, by simp [fence?]⟩

theorem mem_uses : l ∈ uses i log ↔ .used i l ∈ log := by
  simp only [uses, List.mem_filterMap]
  constructor
  · rintro ⟨e, he, hl⟩
    cases e <;> simp only [use?, Option.ite_none_right_eq_some, Option.some.injEq, reduceCtorEq] at hl
    obtain ⟨rfl, rfl⟩ := hl
    exact he
  · exact fun h => ⟨_, h, by simp [use?]⟩

theorem fences_cons (h : fence? i e = none) : fences i (e :: log) = fences i log := by
  simp [fences, h]

/-! ## The rules -/

variable (label) in
/-- The use behind fence `n`, the last one of `i`, was reported back, or `i` was reopened since. -/
def Freed (i : ι) (n : Nat) (log : List (FenceEvent ι κ)) : Prop :=
  .reopened i ∈ sinceFence i log ∨ .returned i (label i n) ∈ sinceFence i log

variable (label) in
/-- What is allowed to happen to `i` behind the events of a log. -/
def Allowed (i : ι) (older : List (FenceEvent ι κ)) : FenceEvent ι κ → Prop
  | .fenced j n => j = i → n = (fences i older).length + 1 ∧ (1 < n → Freed label i (n - 1) older)
  | .used j l => j = i → l ∉ uses i older ∧ ∃ n ∈ fences i older, l = label i n
  | .returned j l => j = i → l ∈ uses i older
  | .reopened _ => True

variable (label) in
/-- Every event of the log was allowed when it happened. -/
def Legal (i : ι) : List (FenceEvent ι κ) → Prop
  | [] => True
  | e :: older => Allowed label i older e ∧ Legal i older

/-- An event that is no fence of `i` keeps it free. -/
theorem Freed.cons (h : Freed label i n log) (he : fence? i e = none) :
    Freed label i n (e :: log) := by
  have hsince : sinceFence i (e :: log) = e :: sinceFence i log := by simp [sinceFence, he]
  unfold Freed
  rw [hsince]
  exact h.imp (List.mem_cons_of_mem _) (List.mem_cons_of_mem _)

theorem Legal.of_append (h : Legal label i (newer ++ log)) : Legal label i log := by
  induction newer with
  | nil => exact h
  | cons e newer ih => exact ih h.2

theorem Legal.allowed (h : Legal label i (newer ++ e :: older)) : Allowed label i older e :=
  h.of_append.1

/-! ## What the rules give -/

/-- The fences are numbered from one on. -/
theorem Legal.reverse_fences (h : Legal label i log) :
    (fences i log).reverse = List.range' 1 (fences i log).length := by
  induction log with
  | nil => rfl
  | cons e log ih =>
    have hlog := ih h.2
    cases e with
    | fenced j n =>
      rw [fences_fenced]
      split_ifs with hj
      · obtain ⟨hn, -⟩ := h.1 hj
        rw [List.reverse_cons, hlog, List.length_cons, List.range'_concat, hn]
        simp [Nat.add_comm]
      · exact hlog
    | used => exact hlog
    | returned => exact hlog
    | reopened => exact hlog

/-- A number of a fence is at least one and at most the number of fences. -/
theorem Legal.mem_fences_iff (h : Legal label i log) :
    n ∈ fences i log ↔ 1 ≤ n ∧ n ≤ (fences i log).length := by
  rw [← List.mem_reverse, h.reverse_fences, List.mem_range'_1]
  omega

/-- No label is used twice. -/
theorem Legal.nodup_uses (h : Legal label i log) : (uses i log).Nodup := by
  induction log with
  | nil => exact List.nodup_nil
  | cons e log ih =>
    have hlog := ih h.2
    cases e with
    | used j l =>
      rw [uses_used]
      split_ifs with hj
      · exact List.nodup_cons.mpr ⟨(h.1 hj).1, hlog⟩
      · exact hlog
    | fenced => exact hlog
    | returned => exact hlog
    | reopened => exact hlog

/-- A use comes after the fence whose label it has. -/
theorem Legal.fence_of_use (h : Legal label i log) (heq : log = newer ++ .used i l :: older) :
    ∃ n, .fenced i n ∈ older ∧ l = label i n := by
  subst heq
  obtain ⟨-, n, hn, hl⟩ := h.allowed rfl
  exact ⟨n, mem_fences.mp hn, hl⟩

/-- There are at most as many uses as fences. -/
theorem Legal.length_uses_le (h : Legal label i log) :
    (uses i log).length ≤ (fences i log).length := by
  have hsub : uses i log ⊆ (fences i log).map (label i) := by
    intro l hl
    obtain ⟨newer, older, heq⟩ := List.append_of_mem (mem_uses.mp hl)
    obtain ⟨n, hn, rfl⟩ := h.fence_of_use heq
    refine List.mem_map.mpr ⟨n, mem_fences.mpr ?_, rfl⟩
    rw [heq]
    exact List.mem_append_right _ (List.mem_cons_of_mem _ hn)
  simpa using (List.subperm_of_subset h.nodup_uses hsub).length_le

theorem sinceFence_append_fenced {between : List (FenceEvent ι κ)}
    (h : ∀ m, .fenced i m ∉ between) :
    sinceFence i (between ++ .fenced i n :: older) = between := by
  induction between with
  | nil => simp [sinceFence, fence?]
  | cons e between ih =>
    have hnone : (fence? i e).isNone = true := by
      cases e with
      | fenced j m =>
        have hj : j ≠ i := by
          rintro rfl
          exact h m List.mem_cons_self
        simp [fence?, hj]
      | _ => rfl
    have hrest := ih fun m hm => h m (List.mem_cons_of_mem _ hm)
    unfold sinceFence at hrest ⊢
    simp only [List.cons_append, List.takeWhile_cons, hnone, if_true, hrest]

/-- Between a fence and the next one the resource was reopened, or the use behind the first of them was
made and then reported back. -/
theorem Legal.between (h : Legal label i log) (inj : Function.Injective (label i))
    {between : List (FenceEvent ι κ)}
    (heq : log = newer ++ .fenced i (n + 1) :: (between ++ .fenced i n :: older)) :
    .reopened i ∈ between ∨ ∃ a b d,
      between = a ++ .returned i (label i n) :: (b ++ .used i (label i n) :: d) := by
  subst heq
  have hnext := h.of_append
  have hfirst : n = (fences i older).length + 1 := (hnext.2.allowed rfl).1
  obtain ⟨hcount, hopened⟩ := hnext.1 rfl
  -- the two fences are consecutive
  have hnone : ∀ m, .fenced i m ∉ between := by
    intro m hm
    have hlength : (fences i (between ++ .fenced i n :: older)).length =
        (fences i between).length + ((fences i older).length + 1) := by
      simp [fences, List.filterMap_append, fence?]
    have hpos : 0 < (fences i between).length := List.length_pos_of_mem (mem_fences.mpr hm)
    omega
  have hpos : 1 < n + 1 := by omega
  have hsince := hopened hpos
  rw [Freed, sinceFence_append_fenced hnone, Nat.add_sub_cancel] at hsince
  refine hsince.imp_right fun hreturned => ?_
  obtain ⟨a, rest, rfl⟩ := List.append_of_mem hreturned
  have hlegal : Legal label i (.returned i (label i n) :: (rest ++ .fenced i n :: older)) := by
    have := hnext.2
    simp only [List.append_assoc, List.cons_append] at this
    exact this.of_append
  have hused : label i n ∈ uses i (rest ++ .fenced i n :: older) := hlegal.1 rfl
  -- a use under this label comes after the fence
  obtain hmem | hmem : .used i (label i n) ∈ rest ∨ .used i (label i n) ∈ older := by
    simpa using mem_uses.mp hused
  · obtain ⟨b, d, rfl⟩ := List.append_of_mem hmem
    exact ⟨a, b, d, rfl⟩
  · obtain ⟨b, d, rfl⟩ := List.append_of_mem hmem
    have hd : Legal label i (b ++ .used i (label i n) :: d) := by
      have := hlegal.2.of_append
      exact this.2
    obtain ⟨m, hm, hlabel⟩ := hd.fence_of_use rfl
    have hm' : m ∈ fences i (b ++ .used i (label i n) :: d) :=
      mem_fences.mpr (List.mem_append_right _ (List.mem_cons_of_mem _ hm))
    have hle := (hd.mem_fences_iff.mp hm').2
    have := inj hlabel
    omega

end Lib
