import Mathlib.Tactic.Linarith
import Mathlib.Algebra.Order.Group.Unbundled.Int
import Mathlib.Algebra.Order.Group.Abs

/-!
# Time zones

A zone is an offset and a list of transitions, each with the offset that holds from it on. Consecutive
transitions are farther apart than the jumps of the clock at both of them. `local_` is the wall clock
reading of an instant; a reading may have several instants or none. `utcoffset` answers for a reading and
a fold, as bisection of the transitions by wall clock does: the offset before a transition up to the
larger of its two readings for fold 0, up to the smaller for fold 1. `fold` marks a repeated reading.
-/
namespace Lib

/-- Transitions behind an offset: each is farther from the next than either of their jumps. -/
def Spaced : Int → List (Int × Int) → Prop
  | _, [] => True
  | before, (t, o) :: rest =>
    (∀ e ∈ rest.head?, |o - before| < e.1 - t ∧ |e.2 - o| < e.1 - t) ∧ Spaced o rest

namespace Spaced

/-- The offset at an instant. -/
def offsetAt : Int → List (Int × Int) → Int → Int
  | before, [], _ => before
  | before, (t, o) :: rest, u => if u < t then before else offsetAt o rest u

/-- The offset of a wall clock reading. -/
def wallOffset (fold : Bool) : Int → List (Int × Int) → Int → Int
  | before, [], _ => before
  | before, (t, o) :: rest, w =>
    if w < t + (if fold then min before o else max before o) then before
    else wallOffset fold o rest w

/-- Whether an instant reads what an earlier one read: less time has passed since the last transition
than it put the clock back. -/
def foldAt : Int → List (Int × Int) → Int → Bool
  | _, [], _ => false
  | before, (t, o) :: rest, u =>
    if u < t then false
    else match rest with
      | [] => u - t < before - o
      | (t', o') :: rest' => if u < t' then u - t < before - o else foldAt o ((t', o') :: rest') u

variable {before t o u v w : Int} {ts rest : List (Int × Int)}

theorem offsetAt_of_lt (h : u < t) : offsetAt before ((t, o) :: rest) u = before := by
  simp [offsetAt, h]

theorem offsetAt_of_le (h : t ≤ u) : offsetAt before ((t, o) :: rest) u = offsetAt o rest u := by
  simp [offsetAt, not_lt.mpr h]

/-- From a transition on, the clock never reads less than right behind it. -/
theorem le_reading (h : Spaced before ((t, o) :: rest)) (hu : t ≤ u) :
    t + o ≤ u + offsetAt o rest u := by
  induction rest generalizing before t o with
  | nil => simpa [offsetAt] using hu
  | cons e rest ih =>
    obtain ⟨t', o'⟩ := e
    obtain ⟨hgap, hrest⟩ := h
    obtain ⟨-, hjump⟩ := hgap (t', o') rfl
    by_cases hlt : u < t'
    · rw [offsetAt_of_lt hlt]
      omega
    · have hle := ih hrest (not_lt.mp hlt)
      rw [offsetAt_of_le (not_lt.mp hlt)]
      have := neg_le_abs (o' - o)
      simp only at hjump
      omega

/-- A reading between a transition and the time it takes to make up for its jump: it is read then. -/
theorem reading_in_jump (h : Spaced before ((t, o) :: rest)) (hle : t + o ≤ w) (hlt : w < t + before) :
    t ≤ w - o ∧ (w - o) + offsetAt o rest (w - o) = w := by
  refine ⟨by omega, ?_⟩
  cases rest with
  | nil => simp [offsetAt]
  | cons e rest =>
    obtain ⟨t', o'⟩ := e
    obtain ⟨hjump, -⟩ := h.1 (t', o') rfl
    have := neg_le_abs (o - before)
    simp only at hjump
    rw [offsetAt_of_lt (by omega)]
    omega

/-- Fold 0 finds the first instant of a reading. -/
theorem wallOffset_first (h : Spaced before ts) (hu : u + offsetAt before ts u = w) :
    (w - wallOffset false before ts w) + offsetAt before ts (w - wallOffset false before ts w) = w ∧
      w - wallOffset false before ts w ≤ u := by
  induction ts generalizing before with
  | nil =>
    simp only [offsetAt, wallOffset] at *
    omega
  | cons e rest ih =>
    obtain ⟨t, o⟩ := e
    have hmax := le_max_left before o
    have hmax' := le_max_right before o
    unfold wallOffset
    simp only [Bool.false_eq_true, if_false]
    split_ifs with hw
    · -- before the larger reading: only instants before the transition qualify first
      by_cases hlt : u < t
      · rw [offsetAt_of_lt hlt] at hu
        rw [offsetAt_of_lt (by omega)]
        omega
      · rw [offsetAt_of_le (not_lt.mp hlt)] at hu
        have hle := le_reading h (not_lt.mp hlt)
        have hb : w - before < t := by
          rcases max_choice before o with hm | hm <;> omega
        rw [offsetAt_of_lt hb]
        omega
    · have hge : t ≤ u := by
        by_contra hlt
        rw [offsetAt_of_lt (not_le.mp hlt)] at hu
        omega
      rw [offsetAt_of_le hge] at hu
      obtain ⟨hread, hle⟩ := ih h.2 hu
      have ht : t ≤ w - wallOffset false o rest w := by
        by_contra hlt
        have hoff : offsetAt o rest (w - wallOffset false o rest w) = o := by
          cases rest with
          | nil => rfl
          | cons e rest =>
            obtain ⟨hjump, -⟩ := h.1 e rfl
            have := abs_nonneg (o - before)
            exact offsetAt_of_lt (by omega)
        omega
      rw [offsetAt_of_le ht]
      exact ⟨hread, hle⟩

/-- Fold 1 finds the last instant of a reading. -/
theorem wallOffset_last (h : Spaced before ts) (hu : u + offsetAt before ts u = w) :
    (w - wallOffset true before ts w) + offsetAt before ts (w - wallOffset true before ts w) = w ∧
      u ≤ w - wallOffset true before ts w := by
  induction ts generalizing before u with
  | nil =>
    simp only [offsetAt, wallOffset] at *
    omega
  | cons e rest ih =>
    obtain ⟨t, o⟩ := e
    have hmin := min_le_left before o
    have hmin' := min_le_right before o
    unfold wallOffset
    simp only [if_true]
    split_ifs with hw
    · have hlt : u < t := by
        by_contra hge
        rw [offsetAt_of_le (not_lt.mp hge)] at hu
        have := le_reading h (not_lt.mp hge)
        omega
      rw [offsetAt_of_lt hlt] at hu
      rw [offsetAt_of_lt (by omega)]
      omega
    · -- some instant behind the transition has the reading
      obtain ⟨v, hv, huv, hread⟩ : ∃ v, t ≤ v ∧ u ≤ v ∧ v + offsetAt o rest v = w := by
        by_cases hlt : u < t
        · rw [offsetAt_of_lt hlt] at hu
          have hle : t + o ≤ w := by rcases min_choice before o with hm | hm <;> omega
          obtain ⟨hge, hread⟩ := reading_in_jump h hle (by omega : w < t + before)
          exact ⟨w - o, hge, by omega, hread⟩
        · rw [offsetAt_of_le (not_lt.mp hlt)] at hu
          exact ⟨u, not_lt.mp hlt, le_rfl, hu⟩
      obtain ⟨hlast, hle⟩ := ih h.2 hread
      rw [offsetAt_of_le (hv.trans hle)]
      exact ⟨hlast, huv.trans hle⟩

/-- The fold of an instant tells whether an earlier one has its reading. -/
theorem foldAt_iff (h : Spaced before ts) : foldAt before ts u = true ↔
    ∃ v < u, v + offsetAt before ts v = u + offsetAt before ts u := by
  induction ts generalizing before with
  | nil => simp [foldAt, offsetAt]
  | cons e rest ih =>
    obtain ⟨t, o⟩ := e
    unfold foldAt
    split_ifs with hu
    · simp only [false_iff, not_exists, not_and]
      intro v hv
      rw [offsetAt_of_lt hu, offsetAt_of_lt (hv.trans hu)]
      omega
    rw [offsetAt_of_le (not_lt.mp hu)]
    -- in the stretch right behind the transition
    have hstretch : offsetAt o rest u = o → (∀ v, v ≤ u → offsetAt o rest v = o) →
        (u - t < before - o ↔
          ∃ v < u, v + offsetAt before ((t, o) :: rest) v = u + offsetAt o rest u) := by
      intro hou hov
      constructor
      · intro hlt
        refine ⟨u + o - before, by omega, ?_⟩
        rw [offsetAt_of_lt (by omega), hou]
        omega
      · rintro ⟨v, hv, hread⟩
        by_cases hvt : v < t
        · rw [offsetAt_of_lt hvt, hou] at hread
          omega
        · rw [offsetAt_of_le (not_lt.mp hvt), hou, hov v hv.le] at hread
          omega
    cases rest with
    | nil => simpa using hstretch rfl fun _ _ => rfl
    | cons e rest =>
      obtain ⟨t', o'⟩ := e
      obtain ⟨hjump, hjump'⟩ := h.1 (t', o') rfl
      simp only at hjump hjump'
      simp only
      split_ifs with hu'
      · simpa using hstretch (offsetAt_of_lt hu') fun v hv => offsetAt_of_lt (hv.trans_lt hu')
      · have hge := not_lt.mp hu'
        have hread := le_reading h.2 hge
        have hou : offsetAt o ((t', o') :: rest) u = offsetAt o' rest u := offsetAt_of_le hge
        have hnonneg := abs_nonneg (o - before)
        have habs := neg_le_abs (o - before)
        have habs' := neg_le_abs (o' - o)
        rw [ih h.2]
        constructor
        · rintro ⟨v, hv, hvread⟩
          have hvt : t ≤ v := by
            by_contra hlt
            rw [offsetAt_of_lt (by omega)] at hvread
            omega
          exact ⟨v, hv, by rwa [offsetAt_of_le hvt]⟩
        · rintro ⟨v, hv, hvread⟩
          by_cases hvt : v < t
          · rw [offsetAt_of_lt hvt] at hvread
            have hw : v + before - o < t' := by omega
            refine ⟨v + before - o, by omega, ?_⟩
            rw [offsetAt_of_lt hw]
            omega
          · rw [offsetAt_of_le (not_lt.mp hvt)] at hvread
            exact ⟨v, hv, hvread⟩

/-- Where the clock reads less later, the earlier reading comes back. -/
theorem exists_later (h : Spaced before ts) (huv : u ≤ v)
    (hlt : v + offsetAt before ts v < u + offsetAt before ts u) :
    ∃ w, u < w ∧ w + offsetAt before ts w = u + offsetAt before ts u := by
  induction ts generalizing before with
  | nil =>
    simp only [offsetAt] at hlt
    omega
  | cons e rest ih =>
    obtain ⟨t, o⟩ := e
    by_cases hu : t ≤ u
    · rw [offsetAt_of_le hu, offsetAt_of_le (hu.trans huv)] at hlt
      obtain ⟨w, hw, hread⟩ := ih h.2 hlt
      exact ⟨w, hw, by rw [offsetAt_of_le hu, offsetAt_of_le (hu.trans hw.le), hread]⟩
    · rw [offsetAt_of_lt (not_le.mp hu)] at hlt ⊢
      have hv : t ≤ v := by
        by_contra hvt
        rw [offsetAt_of_lt (not_le.mp hvt)] at hlt
        omega
      rw [offsetAt_of_le hv] at hlt
      have hle := le_reading h hv
      obtain ⟨ht, hread⟩ := reading_in_jump h (by omega : t + o ≤ u + before) (by omega)
      exact ⟨u + before - o, by omega, by rw [offsetAt_of_le ht, hread]⟩

end Spaced

/-- A zone, in units of the clock. -/
structure Zone where
  initial : Int
  transitions : List (Int × Int)
  spaced : Spaced initial transitions

namespace Zone

variable (z : Zone)

def offset (u : Int) : Int := Spaced.offsetAt z.initial z.transitions u

/-- The wall clock reading of an instant. -/
def local_ (u : Int) : Int := u + z.offset u

def fold (u : Int) : Bool := Spaced.foldAt z.initial z.transitions u

/-- The offset of a reading. -/
def utcoffset (w : Int) (fold : Bool) : Int := Spaced.wallOffset fold z.initial z.transitions w

variable {z} {u v w : Int}

theorem first_of_local (h : z.local_ u = w) :
    z.local_ (w - z.utcoffset w false) = w ∧ w - z.utcoffset w false ≤ u :=
  Spaced.wallOffset_first z.spaced h

theorem last_of_local (h : z.local_ u = w) :
    z.local_ (w - z.utcoffset w true) = w ∧ u ≤ w - z.utcoffset w true :=
  Spaced.wallOffset_last z.spaced h

theorem fold_iff : z.fold u = true ↔ ∃ v < u, z.local_ v = z.local_ u := Spaced.foldAt_iff z.spaced

/-- No instant before the first has its reading. -/
theorem fold_first (h : z.local_ u = w) : z.fold (w - z.utcoffset w false) = false := by
  obtain ⟨hfirst, -⟩ := first_of_local h
  rw [← Bool.not_eq_true, fold_iff]
  rintro ⟨v, hv, hread⟩
  have hle := (first_of_local (hread.trans hfirst)).2
  omega

/-- The last instant of a reading repeats it unless it is the first. -/
theorem fold_last (h : z.local_ u = w) :
    z.fold (w - z.utcoffset w true) = true ↔ z.utcoffset w true ≠ z.utcoffset w false := by
  obtain ⟨hfirst, -⟩ := first_of_local h
  obtain ⟨hlast, -⟩ := last_of_local h
  rw [fold_iff]
  constructor
  · rintro ⟨v, hv, hread⟩ heq
    have hle := (first_of_local (hread.trans hlast)).2
    omega
  · intro hne
    have hle := (first_of_local hlast).2
    exact ⟨w - z.utcoffset w false, by omega, hfirst.trans hlast.symm⟩

/-- The only instant of a later reading is later. -/
theorem lt_of_local_lt (h : z.local_ u < z.local_ v) (only : ∀ w, z.local_ w = z.local_ v → w = v) :
    u < v := by
  by_contra hle
  obtain ⟨w, hw, hread⟩ := Spaced.exists_later z.spaced (not_lt.mp hle) h
  exact absurd (only w hread) hw.ne'

end Zone

end Lib
