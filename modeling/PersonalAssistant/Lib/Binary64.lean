import Mathlib.Data.Nat.Log
import Mathlib.Tactic.Linarith
import Mathlib.Tactic.Ring

/-!
# Quotients in double precision

The binary64 number next to a quotient of positive integers, ties to even, as a significand and a
number of fraction bits, and its floor division by an integer. Quotients are below `2 ^ 53`, where
the spacing of doubles is at most one.
-/
namespace Lib

/-- The integer next to `a / b`, ties to even. -/
def roundHalfEven (a b : ℕ) : ℕ :=
  if 2 * (a % b) < b ∨ 2 * (a % b) = b ∧ a / b % 2 = 0 then a / b else a / b + 1

/-- An even number is reached by rounding exactly from its lower tie on. -/
theorem le_roundHalfEven {a b x : ℕ} (hb : 0 < b) (hx : x % 2 = 0) :
    x ≤ roundHalfEven a b ↔ 2 * (x * b) ≤ 2 * a + b := by
  have ha : a = b * (a / b) + a % b := (Nat.div_add_mod a b).symm
  have hr : a % b < b := Nat.mod_lt a hb
  have hround : roundHalfEven a b =
      if 2 * (a % b) < b ∨ 2 * (a % b) = b ∧ a / b % 2 = 0 then a / b else a / b + 1 := rfl
  generalize a / b = q at ha hround
  generalize a % b = r at ha hr hround
  rw [hround, ha]
  rcases Nat.lt_trichotomy x (q + 1) with h | h | h
  · have hle : x * b ≤ b * q := by
      rw [Nat.mul_comm b q]
      exact Nat.mul_le_mul_right b (by omega)
    have hround' : x ≤ if 2 * r < b ∨ 2 * r = b ∧ q % 2 = 0 then q else q + 1 := by
      split <;> omega
    exact iff_of_true hround' (by omega)
  · -- `q` is odd, so the tie goes up to `x`
    have hmul : x * b = b * q + b := by rw [h]; ring
    rw [hmul]
    split <;> omega
  · have hge : b * q + 2 * b ≤ x * b := by
      calc b * q + 2 * b = (q + 2) * b := by ring
        _ ≤ x * b := Nat.mul_le_mul_right b (by omega)
    have hround' : ¬ x ≤ if 2 * r < b ∨ 2 * r = b ∧ q % 2 = 0 then q else q + 1 := by
      split <;> omega
    exact iff_of_false hround' (by omega)

/-- The number `significand / 2 ^ scale`. -/
structure Binary64 where
  significand : ℕ
  scale : ℕ
deriving DecidableEq, Repr

namespace Binary64

/-- The fraction bits of the doubles around `a / b`: the least number that leaves a significand of 53
bits. -/
def scaleOf (a b : ℕ) : ℕ := Nat.clog 2 ((2 ^ 52 * b + (a - 1)) / a)

theorem lt_scaleOf {a b e : ℕ} (ha : 0 < a) (h : a * 2 ^ e < 2 ^ 52 * b) : e < scaleOf a b := by
  rw [scaleOf, Nat.lt_clog_iff_pow_lt Nat.one_lt_two]
  apply (Nat.le_div_iff_mul_le ha).mpr
  have hmul : (2 ^ e).succ * a = a * 2 ^ e + a := by rw [Nat.succ_eq_add_one]; ring
  omega

/-- `a / b` in double precision. -/
def div (a b : ℕ) : Binary64 := ⟨roundHalfEven (a * 2 ^ scaleOf a b) b, scaleOf a b⟩

/-- `x // d`: the quotient of two doubles below `2 ^ 53` is floored without another rounding. -/
def floorDiv (x : Binary64) (d : ℕ) : ℕ := x.significand / (d * 2 ^ x.scale)

variable {a b d : ℕ}

theorem le_floorDiv_div (hb : 0 < b) (hd : 0 < d) (even : d % 2 = 0) {j : ℕ} :
    j ≤ (div a b).floorDiv d ↔
      2 * (j * (d * b) * 2 ^ scaleOf a b) ≤ 2 * (a * 2 ^ scaleOf a b) + b := by
  have hpos : 0 < d * 2 ^ scaleOf a b := Nat.mul_pos hd (Nat.two_pow_pos _)
  have heven : j * (d * 2 ^ scaleOf a b) % 2 = 0 := by
    rw [Nat.mul_mod, Nat.mul_mod d, even]
    simp
  simp only [floorDiv, div]
  rw [Nat.le_div_iff_mul_le hpos, le_roundHalfEven hb heven]
  have hassoc : j * (d * 2 ^ scaleOf a b) * b = j * (d * b) * 2 ^ scaleOf a b := by ring
  rw [hassoc]

/-- `a / b` ends below a multiple of `d` by at most half the spacing of doubles. -/
def RoundsUp (a b d : ℕ) : Prop :=
  2 * (((a / (d * b) + 1) * (d * b) - a) * 2 ^ scaleOf a b) ≤ b

instance : Decidable (RoundsUp a b d) := inferInstanceAs (Decidable (_ ≤ _))

/-- The floor of a rounded quotient is the floor of the exact one, unless rounding crosses it. -/
theorem floorDiv_div (hb : 0 < b) (hd : 0 < d) (even : d % 2 = 0) :
    (div a b).floorDiv d = if RoundsUp a b d then a / (d * b) + 1 else a / (d * b) := by
  have hdb : 0 < d * b := Nat.mul_pos hd hb
  have hpow : 0 < 2 ^ scaleOf a b := Nat.two_pow_pos _
  have hlt : a < (a / (d * b) + 1) * (d * b) := by
    rw [Nat.mul_comm]
    exact Nat.lt_mul_div_succ a hdb
  have hfloor : a / (d * b) ≤ (div a b).floorDiv d := by
    rw [le_floorDiv_div hb hd even]
    have := Nat.mul_le_mul_right (2 ^ scaleOf a b) (Nat.div_mul_le_self a (d * b))
    omega
  have hnext : ¬ a / (d * b) + 2 ≤ (div a b).floorDiv d := by
    rw [le_floorDiv_div hb hd even]
    have hstep : (a + b) * 2 ^ scaleOf a b < (a / (d * b) + 2) * (d * b) * 2 ^ scaleOf a b := by
      apply Nat.mul_lt_mul_of_pos_right _ hpow
      have hb' : b ≤ d * b := Nat.le_mul_of_pos_left b hd
      linarith
    have hb' : b ≤ b * 2 ^ scaleOf a b := Nat.le_mul_of_pos_right b hpow
    linarith
  have hup : a / (d * b) + 1 ≤ (div a b).floorDiv d ↔ RoundsUp a b d := by
    rw [le_floorDiv_div hb hd even, RoundsUp, Nat.sub_mul]
    have := Nat.mul_lt_mul_of_pos_right hlt hpow
    omega
  split_ifs with h
  · have := hup.mpr h
    omega
  · have := mt hup.mp h
    omega

/-- Where doubles are less than two units of the divisor apart, nothing crosses. -/
theorem not_roundsUp (hb : 0 < b) (hd : 0 < d) (h : b < 2 * 2 ^ scaleOf a b) :
    ¬ RoundsUp a b d := by
  have hlt : a < (a / (d * b) + 1) * (d * b) := by
    rw [Nat.mul_comm]
    exact Nat.lt_mul_div_succ a (Nat.mul_pos hd hb)
  have hgap : 1 * 2 ^ scaleOf a b ≤ ((a / (d * b) + 1) * (d * b) - a) * 2 ^ scaleOf a b :=
    Nat.mul_le_mul_right _ (by omega)
  unfold RoundsUp
  omega

end Binary64

end Lib
