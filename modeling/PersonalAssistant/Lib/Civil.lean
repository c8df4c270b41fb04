import Mathlib.Data.List.Basic
import Mathlib.Data.Nat.Basic
import Mathlib.Tactic.Ring

/-!
# Civil dates and fixed-width digits

Days are counted from 0001-01-01 (day 0) in the proleptic Gregorian calendar. `ofDays` splits a day
number into year, month and day the way the host's `datetime` does; `toDays` is its inverse. Numbers
inside a timestamp are written with a fixed count of decimal digits.
-/
namespace Lib.Civil

def digitChar (n : Nat) : Char := Char.ofNat (48 + n)

theorem digitChar_inj {a b : Nat} (ha : a < 10) (hb : b < 10) (h : digitChar a = digitChar b) :
    a = b := by
  have key : ∀ a < 10, ∀ b < 10, digitChar a = digitChar b → a = b := by decide
  exact key a ha b hb h

/-- The last `k` decimal digits of `n`, leading zeros kept. -/
def digits : Nat → Nat → List Char
  | 0, _ => []
  | k + 1, n => digitChar (n / 10 ^ k % 10) :: digits k n

@[simp] theorem length_digits (k n : Nat) : (digits k n).length = k := by
  induction k with
  | zero => rfl
  | succ k ih => simp [digits, ih]

theorem mod_eq_of_digits {k m n : Nat} (h : digits k m = digits k n) : m % 10 ^ k = n % 10 ^ k := by
  induction k with
  | zero => simp [Nat.mod_one]
  | succ k ih =>
    simp only [digits, List.cons.injEq] at h
    have hd := digitChar_inj (Nat.mod_lt _ (by decide)) (Nat.mod_lt _ (by decide)) h.1
    rw [Nat.pow_succ, Nat.mod_mul, Nat.mod_mul, hd, ih h.2]

theorem digits_inj {k m n : Nat} (hm : m < 10 ^ k) (hn : n < 10 ^ k)
    (h : digits k m = digits k n) : m = n := by
  have := mod_eq_of_digits h
  rwa [Nat.mod_eq_of_lt hm, Nat.mod_eq_of_lt hn] at this

def monthLengths (leap : Bool) : List Nat :=
  [31, if leap then 29 else 28, 31, 30, 31, 30, 31, 31, 30, 31, 30, 31]

/-- Walk over the month lengths until the day falls into one of them. -/
def findMonth (n month : Nat) : List Nat → Nat × Nat
  | [] => (month, n + 1)
  | len :: rest => if n < len then (month, n + 1) else findMonth (n - len) (month + 1) rest

/-- Month and day of the zero-based day `n` of a year. -/
def monthDay (leap : Bool) (n : Nat) : Nat × Nat := findMonth n 1 (monthLengths leap)

/-- Days of a year before the first of `month`. -/
def daysBeforeMonth (leap : Bool) (month : Nat) : Nat := ((monthLengths leap).take (month - 1)).sum

def isLeap (year : Nat) : Bool := year % 4 == 0 && (year % 100 != 0 || year % 400 == 0)

def daysBeforeYear (year : Nat) : Nat :=
  (year - 1) * 365 + (year - 1) / 4 - (year - 1) / 100 + (year - 1) / 400

/-- Year of a day, and the zero-based day of that year. -/
def yearDay (n : Nat) : Nat × Nat :=
  let n400 := n / 146097
  let r400 := n % 146097
  let n100 := r400 / 36524
  let r100 := r400 % 36524
  let n4 := r100 / 1461
  let r4 := r100 % 1461
  let n1 := r4 / 365
  let r1 := r4 % 365
  let year := n400 * 400 + n100 * 100 + n4 * 4 + n1 + 1
  if n1 = 4 ∨ n100 = 4 then (year - 1, 365) else (year, r1)

/-- Year, month and day of a day number. -/
def ofDays (n : Nat) : Nat × Nat × Nat :=
  let (year, day) := yearDay n
  let (month, dayOfMonth) := monthDay (isLeap year) day
  (year, month, dayOfMonth)

def toDays (year month day : Nat) : Nat :=
  daysBeforeYear year + daysBeforeMonth (isLeap year) month + (day - 1)

/-- The days before a year whose predecessor is split into centuries, leap cycles and years. -/
theorem daysBeforeYear_split {a b c d : Nat} (hb : b < 4) (hc : c < 25) (hd : d < 4) :
    daysBeforeYear (a * 400 + b * 100 + c * 4 + d + 1) =
      a * 146097 + b * 36524 + c * 1461 + d * 365 := by
  unfold daysBeforeYear
  rw [Nat.add_sub_cancel]
  have h₄ : (a * 400 + b * 100 + c * 4 + d) / 4 = a * 100 + b * 25 + c := by omega
  have h₁ : (a * 400 + b * 100 + c * 4 + d) / 100 = a * 4 + b := by omega
  have h₀ : (a * 400 + b * 100 + c * 4 + d) / 400 = a := by omega
  rw [h₄, h₁, h₀]
  omega

theorem yearDay_spec (n : Nat) : daysBeforeYear (yearDay n).1 + (yearDay n).2 = n ∧
    (yearDay n).2 < 366 := by
  unfold yearDay
  simp only
  by_cases hc : n % 146097 / 36524 = 4
  · -- the last day of a 400-year cycle
    have hy : n / 146097 * 400 + n % 146097 / 36524 * 100 + n % 146097 % 36524 / 1461 * 4 +
        n % 146097 % 36524 % 1461 / 365 + 1 - 1 = n / 146097 * 400 + 3 * 100 + 24 * 4 + 3 + 1 := by
      omega
    rw [if_pos (.inr hc)]
    simp only
    rw [hy, daysBeforeYear_split (b := 3) (c := 24) (d := 3) (by decide) (by decide) (by decide)]
    exact ⟨by omega, by decide⟩
  · by_cases hd : n % 146097 % 36524 % 1461 / 365 = 4
    · -- the last day of a leap year
      have hy : n / 146097 * 400 + n % 146097 / 36524 * 100 + n % 146097 % 36524 / 1461 * 4 +
          n % 146097 % 36524 % 1461 / 365 + 1 - 1 = n / 146097 * 400 + n % 146097 / 36524 * 100 +
            n % 146097 % 36524 / 1461 * 4 + 3 + 1 := by omega
      rw [if_pos (.inl hd)]
      simp only
      rw [hy, daysBeforeYear_split (by omega) (by omega) (by decide)]
      exact ⟨by omega, by decide⟩
    · rw [if_neg (by simp [hc, hd])]
      simp only
      rw [daysBeforeYear_split (by omega) (by omega) (by omega)]
      exact ⟨by omega, by omega⟩

theorem findMonth_spec {lens : List Nat} (hlen : ∀ len ∈ lens, len ≤ 31) {n : Nat}
    (hn : n ≤ lens.sum) (month : Nat) : ∃ i ≤ lens.length, (findMonth n month lens).1 = month + i ∧
      (lens.take i).sum + ((findMonth n month lens).2 - 1) = n ∧ (findMonth n month lens).2 ≤ 32 := by
  induction lens generalizing n month with
  | nil =>
    have : n = 0 := by simpa using hn
    exact ⟨0, le_rfl, by simp [findMonth, this]⟩
  | cons len rest ih =>
    have hl := hlen len (by simp)
    by_cases h : n < len
    · exact ⟨0, by simp, by simp [findMonth, h]; omega⟩
    · have hn' : n - len ≤ rest.sum := by simp only [List.sum_cons] at hn; omega
      obtain ⟨i, hi, h₁, h₂, h₃⟩ := ih (fun l hl => hlen l (by simp [hl])) hn' (month + 1)
      refine ⟨i + 1, by simpa using hi, ?_, ?_, ?_⟩
      · simp only [findMonth, h, if_false, h₁]; omega
      · simp only [findMonth, h, if_false, List.take_succ_cons, List.sum_cons]; omega
      · simpa only [findMonth, h, if_false] using h₃

theorem monthDay_spec (leap : Bool) {n : Nat} (h : n < 366) :
    daysBeforeMonth leap (monthDay leap n).1 + ((monthDay leap n).2 - 1) = n ∧
      (monthDay leap n).1 < 100 ∧ (monthDay leap n).2 < 100 := by
  have hlen : ∀ len ∈ monthLengths leap, len ≤ 31 := by cases leap <;> decide
  have hn : n ≤ (monthLengths leap).sum := by
    have : 365 ≤ (monthLengths leap).sum := by cases leap <;> decide
    omega
  obtain ⟨i, hi, h₁, h₂, h₃⟩ := findMonth_spec hlen hn 1
  have hl : (monthLengths leap).length = 12 := by cases leap <;> rfl
  rw [monthDay, daysBeforeMonth, h₁, Nat.add_sub_cancel_left]
  exact ⟨h₂, by omega, by omega⟩

theorem toDays_ofDays (n : Nat) :
    toDays (ofDays n).1 (ofDays n).2.1 (ofDays n).2.2 = n := by
  obtain ⟨hy, hlt⟩ := yearDay_spec n
  obtain ⟨hm, -⟩ := monthDay_spec (isLeap (yearDay n).1) hlt
  simp only [toDays, ofDays]
  omega

/-! ## Calendar dates -/

/-- A year, a month of it and a day of the month. -/
structure IsDate (year month day : Nat) : Prop where
  year_pos : 1 ≤ year
  month_pos : 1 ≤ month
  month_le : month ≤ 12
  day_pos : 1 ≤ day
  day_le : day ≤ (monthLengths (isLeap year)).getD (month - 1) 0

/-- The days of a year. -/
def yearLength (leap : Bool) : Nat := if leap then 366 else 365

theorem yearDay_lt (n : Nat) : 1 ≤ (yearDay n).1 ∧ (yearDay n).2 < yearLength (isLeap (yearDay n).1) := by
  have hleast : ∀ leap, 365 ≤ yearLength leap := by decide
  unfold yearDay
  simp only
  split_ifs with h
  · -- the day before a new year of the shortened cycle is the last one of a leap year
    have hleap : isLeap (n / 146097 * 400 + n % 146097 / 36524 * 100 + n % 146097 % 36524 / 1461 * 4 +
        n % 146097 % 36524 % 1461 / 365 + 1 - 1) = true := by
      simp only [isLeap, Bool.and_eq_true, Bool.or_eq_true, beq_iff_eq, bne_iff_ne]
      omega
    rw [hleap]
    exact ⟨by omega, by simp [yearLength]⟩
  · refine ⟨by omega, lt_of_lt_of_le ?_ (hleast _)⟩
    exact Nat.mod_lt _ (by decide)

theorem findMonth_lt {lens : List Nat} {n : Nat} (hn : n < lens.sum) (month : Nat) :
    ∃ i < lens.length, (findMonth n month lens).1 = month + i ∧ 1 ≤ (findMonth n month lens).2 ∧
      (findMonth n month lens).2 ≤ lens.getD i 0 := by
  induction lens generalizing n month with
  | nil => simp at hn
  | cons len rest ih =>
    by_cases h : n < len
    · refine ⟨0, by simp, ?_⟩
      simp only [findMonth, if_pos h, List.getD_cons_zero]
      omega
    · have hn' : n - len < rest.sum := by
        simp only [List.sum_cons] at hn
        omega
      obtain ⟨i, hi, hmonth, hpos, hle⟩ := ih hn' (month + 1)
      refine ⟨i + 1, by simpa using hi, ?_, ?_, ?_⟩
      · simp only [findMonth, h, if_false, hmonth]
        omega
      · simpa only [findMonth, h, if_false] using hpos
      · simpa only [findMonth, h, if_false, List.getD_cons_succ] using hle

theorem isDate_ofDays (n : Nat) : IsDate (ofDays n).1 (ofDays n).2.1 (ofDays n).2.2 := by
  obtain ⟨hyear, hday⟩ := yearDay_lt n
  have hsum : ∀ leap, (monthLengths leap).sum = yearLength leap ∧ (monthLengths leap).length = 12 := by decide
  obtain ⟨hs, hl⟩ := hsum (isLeap (yearDay n).1)
  obtain ⟨i, hi, hmonth, hpos, hle⟩ := findMonth_lt (hs ▸ hday) 1
  have hm : (ofDays n).2.1 = 1 + i := hmonth
  exact {
    year_pos := hyear
    month_pos := by omega
    month_le := by omega
    day_pos := hpos
    day_le := by
      rw [hm, Nat.add_sub_cancel_left]
      exact hle }

/-! ## Timestamps as text -/

def microsPerDay : Nat := 86400000000

/-- The fraction of a second, written only when it is not zero. -/
def fraction (micros : Nat) (suffix : List Char) : List Char :=
  if micros = 0 then suffix else '.' :: (digits 6 micros ++ suffix)

/-- Date, separator, time of day, optional fraction and a zone suffix. -/
def stamp (sep : Char) (suffix : List Char) (micros : Nat) : List Char :=
  let date := ofDays (micros / microsPerDay)
  let time := micros % microsPerDay
  digits 4 date.1 ++ '-' :: (digits 2 date.2.1 ++ '-' :: (digits 2 date.2.2 ++ sep ::
    (digits 2 (time / 3600000000) ++ ':' :: (digits 2 (time / 60000000 % 60) ++ ':' ::
      (digits 2 (time / 1000000 % 60) ++ fraction (time % 1000000) suffix)))))

/-- The text of a date and a time of day in microseconds. -/
def fieldsText (sep : Char) (suffix : List Char) (year month day time : Nat) : List Char :=
  digits 4 year ++ '-' :: (digits 2 month ++ '-' :: (digits 2 day ++ sep ::
    (digits 2 (time / 3600000000) ++ ':' :: (digits 2 (time / 60000000 % 60) ++ ':' ::
      (digits 2 (time / 1000000 % 60) ++ fraction (time % 1000000) suffix)))))

theorem exists_of_mem_digits {k n : Nat} {c : Char} (h : c ∈ digits k n) : ∃ d < 10, c = digitChar d := by
  induction k with
  | zero => cases h
  | succ k ih =>
    rcases List.mem_cons.mp h with rfl | h
    · exact ⟨_, Nat.mod_lt _ (by decide), rfl⟩
    · exact ih h

/-- A stamp is made of digits, marks, the separator and the suffix. -/
theorem forall_mem_stamp {P : Char → Prop} {sep : Char} {suffix : List Char}
    (hdigit : ∀ d < 10, P (digitChar d)) (hmark : ∀ c ∈ ['-', ':', '.'], P c) (hsep : P sep)
    (hsuffix : ∀ c ∈ suffix, P c) {micros : Nat} {c : Char} (h : c ∈ stamp sep suffix micros) : P c := by
  have hdigits : ∀ k n, c ∈ digits k n → P c := by
    intro k n hc
    obtain ⟨d, hd, rfl⟩ := exists_of_mem_digits hc
    exact hdigit d hd
  have hfraction : ∀ n, c ∈ fraction n suffix → P c := by
    intro n hc
    unfold fraction at hc
    split_ifs at hc
    · exact hsuffix c hc
    · simp only [List.mem_cons, List.mem_append] at hc
      rcases hc with rfl | hc | hc
      · exact hmark _ (by simp)
      · exact hdigits _ _ hc
      · exact hsuffix c hc
  simp only [stamp, List.mem_append, List.mem_cons] at h
  rcases h with h | rfl | h | rfl | h | rfl | h | rfl | h | rfl | h | h
  all_goals first
    | exact hdigits _ _ h
    | exact hfraction _ h
    | exact hsep
    | exact hmark _ (by simp)

theorem field_inj {k m n : Nat} {c : Char} {r r' : List Char} (hm : m < 10 ^ k) (hn : n < 10 ^ k)
    (h : digits k m ++ c :: r = digits k n ++ c :: r') : m = n ∧ r = r' := by
  obtain ⟨hd, hr⟩ := List.append_inj h (by simp)
  exact ⟨digits_inj hm hn hd, by simpa using hr⟩

theorem fraction_inj {m n : Nat} {suffix : List Char} (hm : m < 1000000) (hn : n < 1000000)
    (hs : suffix.head? ≠ some '.') (h : fraction m suffix = fraction n suffix) : m = n := by
  unfold fraction at h
  split_ifs at h with h₁ h₂ h₂
  · rw [h₁, h₂]
  · exact absurd (by rw [h]; rfl) hs
  · exact absurd (by rw [← h]; rfl) hs
  · obtain ⟨hd, -⟩ := List.append_inj (List.cons.inj h).2 (by simp)
    exact digits_inj (k := 6) hm hn hd

theorem ofDays_lt {n : Nat} (hn : n < 3652059) : (ofDays n).1 < 10 ^ 4 ∧
    (ofDays n).2.1 < 10 ^ 2 ∧ (ofDays n).2.2 < 10 ^ 2 := by
  obtain ⟨hy, hlt⟩ := yearDay_spec n
  obtain ⟨-, hm, hd⟩ := monthDay_spec (isLeap (yearDay n).1) hlt
  refine ⟨?_, by simpa [ofDays] using hm, by simpa [ofDays] using hd⟩
  have hb : 3652059 ≤ daysBeforeYear (10 ^ 4) := by decide
  by_contra hge
  have hle : 10 ^ 4 ≤ (yearDay n).1 := by simpa [ofDays] using hge
  have hmono : daysBeforeYear (10 ^ 4) ≤ daysBeforeYear (yearDay n).1 := by
    unfold daysBeforeYear; omega
  omega

/-- The text determines the instant, as long as the year has four digits. -/
theorem stamp_inj {sep : Char} {suffix : List Char} (hs : suffix.head? ≠ some '.') {a b : Nat}
    (ha : a / microsPerDay < 3652059) (hb : b / microsPerDay < 3652059)
    (h : stamp sep suffix a = stamp sep suffix b) : a = b := by
  obtain ⟨ya, ma, da⟩ := ofDays_lt ha
  obtain ⟨yb, mb, db⟩ := ofDays_lt hb
  have hta := Nat.mod_lt a (show microsPerDay > 0 by decide)
  have htb := Nat.mod_lt b (show microsPerDay > 0 by decide)
  have ea := toDays_ofDays (a / microsPerDay)
  have eb := toDays_ofDays (b / microsPerDay)
  unfold stamp at h
  simp only [microsPerDay] at *
  obtain ⟨hy, h⟩ := field_inj ya yb h
  obtain ⟨hm, h⟩ := field_inj ma mb h
  obtain ⟨hd, h⟩ := field_inj da db h
  obtain ⟨hh, h⟩ := field_inj (by omega) (by omega) h
  obtain ⟨hmin, h⟩ := field_inj (by omega) (by omega) h
  obtain ⟨hsec, h⟩ := List.append_inj h (by simp)
  have hsec := digits_inj (by omega) (by omega) hsec
  have hmic := fraction_inj (by omega) (by omega) hs h
  have hday : a / 86400000000 = b / 86400000000 := by rw [← ea, ← eb, hy, hm, hd]
  omega

/-! ## Reading timestamps -/

def digitValue (c : Char) : Option Nat :=
  if 48 ≤ c.toNat ∧ c.toNat ≤ 57 then some (c.toNat - 48) else none

theorem digitValue_digitChar {n : Nat} (h : n < 10) : digitValue (digitChar n) = some n := by
  have key : ∀ n < 10, digitValue (digitChar n) = some n := by decide
  exact key n h

/-- Read `k` digits behind a number already read. -/
def readDigits : Nat → Nat → List Char → Option (Nat × List Char)
  | 0, acc, cs => some (acc, cs)
  | _ + 1, _, [] => none
  | k + 1, acc, c :: cs => (digitValue c).bind fun d => readDigits k (acc * 10 + d) cs

theorem readDigits_digits (k n acc : Nat) (r : List Char) :
    readDigits k acc (digits k n ++ r) = some (acc * 10 ^ k + n % 10 ^ k, r) := by
  induction k generalizing acc with
  | zero => simp [readDigits, digits, Nat.mod_one]
  | succ k ih =>
    have hd := digitValue_digitChar (Nat.mod_lt (n / 10 ^ k) (by decide : 10 > 0))
    simp only [digits, List.cons_append, readDigits, hd, Option.bind_some, ih]
    have hmod : n % 10 ^ (k + 1) = n % 10 ^ k + 10 ^ k * (n / 10 ^ k % 10) := by
      rw [Nat.pow_succ, Nat.mod_mul]
    rw [hmod, Nat.pow_succ, Nat.add_mul, Nat.mul_comm (n / 10 ^ k % 10)]
    simp only [Option.some.injEq, Prod.mk.injEq, and_true]
    ring

/-- A field of `k` digits and the separator behind it. -/
def readField (k : Nat) (sep : Char) (cs : List Char) : Option (Nat × List Char) :=
  match readDigits k 0 cs with
  | some (n, c :: r) => if c = sep then some (n, r) else none
  | _ => none

theorem readField_digits {k n : Nat} (h : n < 10 ^ k) (sep : Char) (r : List Char) :
    readField k sep (digits k n ++ sep :: r) = some (n, r) := by
  simp [readField, readDigits_digits, Nat.mod_eq_of_lt h]

def readFraction (suffix cs : List Char) : Option Nat :=
  if cs = suffix then some 0
  else match cs with
    | '.' :: cs => (readDigits 6 0 cs).bind fun f => if f.2 = suffix then some f.1 else none
    | _ => none

theorem readFraction_fraction {n : Nat} {suffix : List Char} (hn : n < 10 ^ 6)
    (hs : suffix.head? ≠ some '.') : readFraction suffix (fraction n suffix) = some n := by
  unfold fraction
  split_ifs with h
  · simp [readFraction, h]
  · have hne : '.' :: (digits 6 n ++ suffix) ≠ suffix := fun he => hs (by rw [← he]; rfl)
    simpa [readFraction, hne, readDigits_digits] using hn

/-- The reader of `stamp`. -/
def readStamp (sep : Char) (suffix cs : List Char) : Option Nat := do
  let (year, cs) ← readField 4 '-' cs
  let (month, cs) ← readField 2 '-' cs
  let (day, cs) ← readField 2 sep cs
  let (hour, cs) ← readField 2 ':' cs
  let (minute, cs) ← readField 2 ':' cs
  let (second, cs) ← readDigits 2 0 cs
  let micro ← readFraction suffix cs
  return toDays year month day * microsPerDay + hour * 3600000000 + minute * 60000000 +
    second * 1000000 + micro

theorem readStamp_fieldsText {sep : Char} {suffix : List Char} (hs : suffix.head? ≠ some '.')
    {year month day time : Nat} (hyear : year < 10 ^ 4) (hmonth : month < 10 ^ 2) (hday : day < 10 ^ 2)
    (htime : time < microsPerDay) : readStamp sep suffix (fieldsText sep suffix year month day time) =
      some (toDays year month day * microsPerDay + time) := by
  simp only [microsPerDay] at htime
  have hhour : time / 3600000000 < 10 ^ 2 := by omega
  have hminute : time / 60000000 % 60 < 10 ^ 2 := by omega
  have hsecond : time / 1000000 % 60 < 10 ^ 2 := by omega
  have hmicro := @readFraction_fraction (time % 1000000) suffix (by omega) hs
  simp only [readStamp, fieldsText, microsPerDay, readField_digits hyear, readField_digits hmonth,
    readField_digits hday, readField_digits hhour, readField_digits hminute, readDigits_digits,
    Nat.mod_eq_of_lt hsecond, hmicro, Option.bind_eq_bind, Option.bind_some, Option.pure_def,
    Option.some.injEq, Nat.zero_mul, Nat.zero_add]
  omega

end Lib.Civil
