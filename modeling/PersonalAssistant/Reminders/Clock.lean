import PersonalAssistant.Reminders.Parser

/-!
# The twelve-hour clock

What `_parse_clock` makes of a match of `WALL_CLOCK_RE`. The expression allows any white space inside the
meridiem and either case of its letters; the interpretation takes out dots and spaces and compares with
`am`.
-/
namespace PersonalAssistant

open Lib Regex

variable {platform : Platform} {p : ReminderParser platform}

namespace ReminderParser

/-! ## Meridiems -/

/-- A meridiem is an `a` or a `p` and an `m`, with white space and dots between and behind. -/
theorem word_meridiemRe {w : List Char} (h : Word meridiemRe w) : ∃ x s d s' y d',
    w = x :: (s ++ (d ++ (s' ++ y :: d'))) ∧ (∀ c ∈ s ++ s', isSpace c) ∧ (∀ c ∈ d ++ d', c = '.') ∧
      (foldsTo 'a' x ∨ foldsTo 'p' x) ∧ foldsTo 'm' y := by
  obtain ⟨v, _, hv, ⟨s, _, hs, ⟨d, _, hd, ⟨s', _, hs', ⟨_, d', ⟨y, hy, rfl⟩, hd', rfl⟩, rfl⟩, rfl⟩, rfl⟩,
    rfl⟩ := h
  have hletter : ∃ x, (foldsTo 'a' x ∨ foldsTo 'p' x) ∧ v = [x] := by
    rcases hv with ⟨x, hx, rfl⟩ | ⟨x, hx, rfl⟩
    · exact ⟨x, .inl hx, rfl⟩
    · exact ⟨x, .inr hx, rfl⟩
  obtain ⟨x, hx, rfl⟩ := hletter
  have hdots : ∀ u, Word (opt (lit '.')) u → ∀ c ∈ u, c = '.' := by
    intro u hu
    rcases word_opt hu with rfl | ⟨c, hc, rfl⟩
    · simp
    · simpa using hc
  refine ⟨x, s, d, s', y, d', rfl, ?_, ?_, hx, hy⟩
  · simpa [or_imp, forall_and] using ⟨word_star_char hs, word_star_char hs'⟩
  · simpa [or_imp, forall_and] using ⟨hdots d hd, hdots d' hd'⟩

theorem foldsTo_m {c : Char} (h : foldsTo 'm' c) : c = 'm' ∨ c = 'M' := by
  have hfold : c = 'm' ∨ c.toLower = 'm' := by simpa [foldsTo] using h
  rcases hfold with hm | hm
  · exact .inl hm
  · delta Char.toLower at hm
    split_ifs at hm with hcase
    · right
      have hval := congrArg Char.val hm
      simp only at hval
      apply Char.ext
      show c.val = 77
      grind
    · exact .inl hm

/-- The meridiem is spelled so that its interpretation understands an `a`. -/
def Spelled (w : List Char) : Prop :=
  w.head? = some 'a' → (∀ c ∈ w, isSpace c → c = ' ') ∧ 'M' ∉ w

theorem cleanMeridiem_append (v w : List Char) :
    cleanMeridiem (v ++ w) = cleanMeridiem v ++ cleanMeridiem w :=
  List.filter_append v w

theorem cleanMeridiem_dots {d : List Char} (h : ∀ c ∈ d, c = '.') : cleanMeridiem d = [] := by
  apply List.filter_eq_nil_iff.mpr
  intro c hc
  simp [h c hc]

theorem cleanMeridiem_spaces {s : List Char} (h : ∀ c ∈ s, isSpace c) :
    cleanMeridiem s = [] ↔ ∀ c ∈ s, c = ' ' := by
  unfold cleanMeridiem
  rw [List.filter_eq_nil_iff]
  refine forall₂_congr fun c hc => ?_
  have hne : c ≠ '.' := by
    rintro rfl
    exact absurd (h _ hc) (by decide)
  simp [hne]

theorem cleanMeridiem_eq_am {w : List Char} (h : Word meridiemRe w) (ha : w.head? = some 'a') :
    cleanMeridiem w = ['a', 'm'] ↔ Spelled w := by
  obtain ⟨x, s, d, s', y, d', rfl, hs, hd, -, hy⟩ := word_meridiemRe h
  obtain rfl : x = 'a' := by simpa using ha
  simp only [List.mem_append, or_imp, forall_and] at hs hd
  have hclean : cleanMeridiem ('a' :: (s ++ (d ++ (s' ++ y :: d')))) =
      'a' :: (cleanMeridiem s ++ (cleanMeridiem s' ++ [y])) := by
    have hy' : cleanMeridiem (y :: d') = [y] := by
      have hd' := cleanMeridiem_dots hd.2
      rcases foldsTo_m hy with rfl | rfl <;> simpa [cleanMeridiem] using hd'
    have hcons : ∀ v, cleanMeridiem ('a' :: v) = 'a' :: cleanMeridiem v := fun v => rfl
    rw [hcons, cleanMeridiem_append, cleanMeridiem_append, cleanMeridiem_append, hy',
      cleanMeridiem_dots hd.1, List.nil_append]
  have hnil : cleanMeridiem s ++ (cleanMeridiem s' ++ [y]) = ['m'] ↔
      cleanMeridiem s = [] ∧ cleanMeridiem s' = [] ∧ y = 'm' := by
    cases cleanMeridiem s <;> cases cleanMeridiem s' <;> simp
  rw [hclean, List.cons.injEq, hnil, cleanMeridiem_spaces hs.1, cleanMeridiem_spaces hs.2]
  have hspace : ∀ c ∈ s, c ≠ 'M' := fun c hc => by
    rintro rfl
    exact absurd (hs.1 _ hc) (by decide)
  have hspace' : ∀ c ∈ s', c ≠ 'M' := fun c hc => by
    rintro rfl
    exact absurd (hs.2 _ hc) (by decide)
  constructor
  · rintro ⟨-, h₁, h₂, rfl⟩ -
    constructor
    · intro c hc hblank
      simp only [List.mem_cons, List.mem_append] at hc
      rcases hc with rfl | hc | hc | hc | rfl | hc
      · exact absurd hblank (by decide)
      · exact h₁ c hc
      · rw [hd.1 c hc] at hblank
        exact absurd hblank (by decide)
      · exact h₂ c hc
      · exact absurd hblank (by decide)
      · rw [hd.2 c hc] at hblank
        exact absurd hblank (by decide)
    · intro hM
      simp only [List.mem_cons, List.mem_append] at hM
      rcases hM with hM | hM | hM | hM | hM | hM
      · exact absurd hM (by decide)
      · exact hspace _ hM rfl
      · exact absurd (hd.1 _ hM) (by decide)
      · exact hspace' _ hM rfl
      · exact absurd hM (by decide)
      · exact absurd (hd.2 _ hM) (by decide)
  · intro hspelled
    obtain ⟨hblank, hM⟩ := hspelled rfl
    refine ⟨rfl, ?_, ?_, ?_⟩
    · intro c hc
      exact hblank c (by simp [hc]) (hs.1 c hc)
    · intro c hc
      exact hblank c (by simp [hc]) (hs.2 c hc)
    · rcases foldsTo_m hy with rfl | rfl
      · rfl
      · simp at hM

/-! ## Readings -/

/-- The clock of a text comes from a match of `WALL_CLOCK_RE`, not from `medianoche` or `mediodia`. -/
structure FromWallClock (p : ReminderParser platform) (folded : String) (m : Match) : Prop where
  search : Regex.search p.wallClockRe folded = some m
  midnights : Regex.findAll p.midnightRe folded = []
  noons : Regex.findAll p.noonRe folded = []

/-- What a clock says on the twelve-hour reading of a match. -/
structure TwelveHour (p : ReminderParser platform) (m : Match) (c : ClockTime) : Prop where
  minute : c.minute = p.minuteOf m
  minute_le : c.minute ≤ 59
  am : ∀ w, m.group meridiemGroup = some w → w.head? = some 'a' →
    1 ≤ p.hourOf m ∧ p.hourOf m ≤ 12 ∧ c.hour = p.hourOf m % 12
  pm : ∀ w, m.group meridiemGroup = some w → w.head? = some 'p' →
    1 ≤ p.hourOf m ∧ p.hourOf m ≤ 12 ∧ c.hour = 12 + p.hourOf m % 12
  plain : m.group meridiemGroup = none →
    c.hour = p.hourOf m ∧ (p.hourOf m = 0 ∨ 13 ≤ p.hourOf m ∧ p.hourOf m ≤ 23)

/-- Minutes that are absent or two digits below sixty. -/
def ValidMinutes (p : ReminderParser platform) (m : Match) : Prop :=
  ∀ raw, m.group minuteGroup = some raw → raw.length = 2 ∧ p.minuteOf m ≤ 59

/-- The match reads a clock candidate from its start and to its end. -/
def Covers (m candidate : Match) : Prop :=
  m.startPos = candidate.startPos ∧ candidate.endPos ≤ m.endPos

theorem word_of_meridiem {folded : String} {m : Match} {w : List Char}
    (h : FromWallClock p folded m) (hw : m.group meridiemGroup = some w) : Word meridiemRe w := by
  obtain ⟨a, ha, hword⟩ := word_of_group h.search hw
  have hbodies : bodies meridiemGroup p.wallClockRe = [meridiemRe] := rfl
  rw [hbodies, List.mem_singleton] at ha
  rwa [← ha]

/-- One clock candidate is read by the match that covers it, and by no other. -/
theorem parseClock_one {folded timezone : String} {m candidate : Match} (h : FromWallClock p folded m)
    (hone : Regex.findAll p.wallClockCandidateRe folded = [candidate]) :
    p.parseClock folded timezone =
      if m.startPos ≠ candidate.startPos ∨ m.endPos < candidate.endPos then some (.unsupported .invalidTime)
      else some (p.readClock m timezone) := by
  simp [parseClock, hone, h.midnights, h.noons, h.search]

/-- A word for midnight or noon beside a clock candidate is a second expression. -/
theorem parseClock_conflicting {folded timezone : String} {candidate : Match}
    (hone : Regex.findAll p.wallClockCandidateRe folded = [candidate])
    (hword : ¬ (Regex.findAll p.midnightRe folded = [] ∧ Regex.findAll p.noonRe folded = [])) :
    p.parseClock folded timezone = some (.unsupported .conflictingTemporalExpression) := by
  have hmore : (Regex.findAll p.wallClockCandidateRe folded).length +
      (Regex.findAll p.midnightRe folded).length + (Regex.findAll p.noonRe folded).length > 1 := by
    rw [hone, ← List.length_eq_zero_iff, ← List.length_eq_zero_iff] at *
    simp only [List.length_singleton]
    omega
  rw [parseClock, if_pos hmore]

/-- A clock read off a match is what `readClock` makes of it. -/
theorem readClock_of_parseClock {folded timezone : String} {m : Match} {c : ClockTime}
    (h : FromWallClock p folded m) (hc : p.parseClock folded timezone = some (.clock c)) :
    p.readClock m timezone = .clock c := by
  cases hall : Regex.findAll p.wallClockCandidateRe folded with
  | nil => simp [parseClock, hall, h.midnights, h.noons] at hc
  | cons candidate rest =>
    cases rest with
    | nil =>
      rw [parseClock_one h hall] at hc
      split_ifs at hc
      · simp at hc
      · simpa using hc
    | cons _ _ => simp [parseClock, hall, h.midnights, h.noons] at hc

/-- What a clock read off a match says. -/
theorem readClock_eq_clock {m : Match} {timezone : String} {c : ClockTime}
    (hc : p.readClock m timezone = .clock c) : c.minute = p.minuteOf m ∧
      ((∃ raw, m.group meridiemGroup = some raw ∧ 1 ≤ p.hourOf m ∧ p.hourOf m ≤ 12 ∧
          c.hour = if cleanMeridiem raw = ['a', 'm'] then p.hourOf m % 12 else 12 + p.hourOf m % 12) ∨
        m.group meridiemGroup = none ∧ c.hour = p.hourOf m ∧
          (p.hourOf m = 0 ∨ 13 ≤ p.hourOf m ∧ p.hourOf m ≤ 23)) := by
  unfold readClock at hc
  cases hW : m.group meridiemGroup with
  | some raw =>
    simp only [hW] at hc
    split_ifs at hc with hraw hm hH ham
    · cases hc
      exact ⟨rfl, .inl ⟨raw, rfl, hH.1, hH.2, (amHour_eq hH.2).trans (if_pos ham).symm⟩⟩
    · cases hc
      exact ⟨rfl, .inl ⟨raw, rfl, hH.1, hH.2, (pmHour_eq hH.2).trans (if_neg ham).symm⟩⟩
  | none =>
    simp only [hW] at hc
    split_ifs at hc with hraw hm hH hlt
    cases hc
    exact ⟨rfl, .inr ⟨rfl, rfl, by omega⟩⟩

/-- The reading of a match is right exactly when its meridiem is spelled so. -/
theorem twelveHour_iff {m : Match} {timezone : String} {c : ClockTime}
    (hword : ∀ w, m.group meridiemGroup = some w → Word meridiemRe w)
    (hc : p.readClock m timezone = .clock c) :
    TwelveHour p m c ↔ ∀ w, m.group meridiemGroup = some w → Spelled w := by
  have hminute := c.minute_lt
  obtain ⟨hM, ⟨raw, hW, h1, h12, hhour⟩ | ⟨hW, hhour, hplain⟩⟩ := readClock_eq_clock hc
  · have hclean := cleanMeridiem_eq_am (hword raw hW)
    constructor
    · intro h w hw
      obtain rfl : raw = w := Option.some.inj (hW ▸ hw)
      by_cases ha : raw.head? = some 'a'
      · apply (hclean ha).mp
        by_contra hne
        have := (h.am raw hW ha).2.2
        rw [if_neg hne] at hhour
        omega
      · exact fun ha' => absurd ha' ha
    · intro hspelled
      refine ⟨hM, by omega, ?_, ?_, by simp [hW]⟩
      · intro w hw ha
        obtain rfl : raw = w := Option.some.inj (hW ▸ hw)
        rw [if_pos ((hclean ha).mpr (hspelled raw hW))] at hhour
        exact ⟨h1, h12, hhour⟩
      · intro w hw hp
        obtain rfl : raw = w := Option.some.inj (hW ▸ hw)
        have hne : cleanMeridiem raw ≠ ['a', 'm'] := by
          obtain ⟨x, s, d, s', y, d', rfl, -⟩ := word_meridiemRe (hword raw hW)
          obtain rfl : x = 'p' := by simpa using hp
          simp [cleanMeridiem]
        rw [if_neg hne] at hhour
        exact ⟨h1, h12, hhour⟩
  · have hnone : ∀ w, m.group meridiemGroup ≠ some w := by simp [hW]
    refine ⟨fun _ w hw => absurd hw (hnone w), fun _ => ⟨hM, by omega, ?_, ?_, fun _ => ⟨hhour, hplain⟩⟩⟩
    · exact fun w hw => absurd hw (hnone w)
    · exact fun w hw => absurd hw (hnone w)

/-- A match without a meridiem and with an hour of the twelve-hour clock is ambiguous. -/
theorem readClock_ambiguous {m : Match} (timezone : String) (hW : m.group meridiemGroup = none)
    (h1 : 1 ≤ p.hourOf m) (h12 : p.hourOf m ≤ 12) (hM : ValidMinutes p m) :
    p.readClock m timezone = .needsClarification .ambiguousHour timezone := by
  have hraw : (m.group minuteGroup).any (fun raw => raw.length != 2) = false := by
    cases h : m.group minuteGroup with
    | none => rfl
    | some raw => simp [(hM raw h).1]
  have hlt : p.minuteOf m < 60 := by
    cases h : m.group minuteGroup with
    | none => simp [minuteOf, h, Unicode.int]
    | some raw =>
      have := (hM raw h).2
      omega
  simp [readClock, hraw, hlt, hW, h1, h12]

/-- The clock of a match says what its groups say, on the twelve-hour clock, exactly when no white space
but the plain one and no capital `M` follow an `a`. A single candidate with an hour of that clock, valid
minutes and no meridiem asks for clarification, exactly when the match covers it and no word for midnight or
noon is beside it. -/
theorem parseClock_twelveHour (p : ReminderParser platform) (folded timezone : String) (m : Match)
    (h : Regex.search p.wallClockRe folded = some m) :
    (∀ c, FromWallClock p folded m → p.parseClock folded timezone = some (.clock c) →
      (TwelveHour p m c ↔ ∀ w, m.group meridiemGroup = some w → Spelled w)) ∧
    ∀ candidate, Regex.findAll p.wallClockCandidateRe folded = [candidate] →
      m.group meridiemGroup = none → 1 ≤ p.hourOf m → p.hourOf m ≤ 12 → ValidMinutes p m →
        (p.parseClock folded timezone = some (.needsClarification .ambiguousHour timezone) ↔
          Covers m candidate ∧ Regex.findAll p.midnightRe folded = [] ∧
            Regex.findAll p.noonRe folded = []) := by
  constructor
  · intro c hwall hc
    exact twelveHour_iff (fun w hw => word_of_meridiem hwall hw) (readClock_of_parseClock hwall hc)
  · intro candidate hone hW h1 h12 hM
    by_cases hwords : Regex.findAll p.midnightRe folded = [] ∧ Regex.findAll p.noonRe folded = []
    · rw [parseClock_one ⟨h, hwords.1, hwords.2⟩ hone, readClock_ambiguous timezone hW h1 h12 hM]
      unfold Covers
      split_ifs with hcover
      · simp only [Option.some.injEq, reduceCtorEq, false_iff]
        rintro ⟨⟨hstart, hend⟩, -⟩
        exact hcover.elim (absurd hstart) (by omega)
      · simp only [true_iff]
        push Not at hcover
        exact ⟨hcover, hwords⟩
    · rw [parseClock_conflicting hone hwords]
      simp [hwords]

/-! ## On a parser -/

/-- The hour of a clock, if it is one. -/
def clockHour : Option ClockResult → Option Nat
  | some (.clock c) => some c.hour
  | _ => none

theorem exists_of_clockHour (r : Option ClockResult) (hour : Nat) (h : clockHour r = some hour) :
    ∃ c, r = some (.clock c) ∧ c.hour = hour := by
  unfold clockHour at h
  split at h
  · exact ⟨_, rfl, by simpa using h⟩
  · cases h

theorem fromWallClock_of_groups (p : ReminderParser platform) (folded : String) (w : Option (List Char))
    (hw : (Regex.search p.wallClockRe folded).map (·.group meridiemGroup) = some w)
    (hmidnights : (Regex.findAll p.midnightRe folded).isEmpty)
    (hnoons : (Regex.findAll p.noonRe folded).isEmpty) :
    ∃ m, FromWallClock p folded m ∧ m.group meridiemGroup = w := by
  obtain ⟨m, hm, hgroup⟩ := Option.map_eq_some_iff.mp hw
  exact ⟨m, ⟨hm, List.isEmpty_iff.mp hmidnights, List.isEmpty_iff.mp hnoons⟩, hgroup⟩

/-- A match without a meridiem and minutes. -/
theorem exists_match_of_hour (p : ReminderParser platform) (folded : String) (hour : Nat)
    (hm : (Regex.search p.wallClockRe folded).any fun m => (m.group meridiemGroup).isNone &&
      (m.group minuteGroup).isNone && decide (p.hourOf m = hour)) :
    ∃ m, Regex.search p.wallClockRe folded = some m ∧ m.group meridiemGroup = none ∧
      p.hourOf m = hour ∧ ValidMinutes p m := by
  obtain ⟨m, hm, hfacts⟩ := (Option.any_eq_true _ _).mp hm
  simp only [Bool.and_eq_true, Option.isNone_iff_eq_none, decide_eq_true_eq] at hfacts
  exact ⟨m, hm, hfacts.1.1, hfacts.2, by simp [ValidMinutes, hfacts.1.2]⟩

/-- A tabulator inside the meridiem turns the morning into the afternoon, and a word for midnight takes the
place of the question which five is meant. -/
theorem parseClock_tab :
    (¬ ∀ folded timezone m c, FromWallClock sample folded m →
      sample.parseClock folded timezone = some (.clock c) → TwelveHour sample m c) ∧
    ¬ ∀ folded timezone m candidate, Regex.search sample.wallClockRe folded = some m →
      Regex.findAll sample.wallClockCandidateRe folded = [candidate] → m.group meridiemGroup = none →
      1 ≤ sample.hourOf m → sample.hourOf m ≤ 12 → ValidMinutes sample m →
        sample.parseClock folded timezone = some (.needsClarification .ambiguousHour timezone) := by
  constructor
  · intro h
    obtain ⟨m, hm, hW⟩ := fromWallClock_of_groups sample "a las 5 a\tm"
      (some ['a', '\t', 'm']) (by decide +kernel) (by decide +kernel) (by decide +kernel)
    obtain ⟨c, hc, hhour⟩ := exists_of_clockHour (sample.parseClock "a las 5 a\tm" "UTC") 17
      (by decide +kernel)
    have hle := (h _ _ m c hm hc).am _ hW rfl
    omega
  · intro h
    obtain ⟨m, hm, hW, hhour, hminutes⟩ := exists_match_of_hour sample "a las 5 medianoche" 5
      (by decide +kernel)
    have hlength : (Regex.findAll sample.wallClockCandidateRe "a las 5 medianoche").length = 1 := by
      decide +kernel
    have hmidnight : (Regex.findAll sample.midnightRe "a las 5 medianoche").isEmpty = false := by
      decide +kernel
    obtain ⟨candidate, hone⟩ := List.length_eq_one_iff.mp hlength
    have hwords : ¬ (Regex.findAll sample.midnightRe "a las 5 medianoche" = [] ∧
        Regex.findAll sample.noonRe "a las 5 medianoche" = []) := by
      rintro ⟨hnone, -⟩
      rw [hnone] at hmidnight
      cases hmidnight
    have hasked := h _ "UTC" m candidate hm hone hW (by omega) (by omega) hminutes
    rw [parseClock_conflicting hone hwords] at hasked
    cases hasked

theorem parseClock_twelveHour_sample : ∃ m c, FromWallClock sample "a las 5 a.m." m ∧
    sample.parseClock "a las 5 a.m." "UTC" = some (.clock c) ∧ TwelveHour sample m c := by
  obtain ⟨m, hm, hW⟩ := fromWallClock_of_groups sample "a las 5 a.m."
    (some ['a', '.', 'm', '.']) (by decide +kernel) (by decide +kernel) (by decide +kernel)
  obtain ⟨c, hc, -⟩ := exists_of_clockHour (sample.parseClock "a las 5 a.m." "UTC") 5
    (by decide +kernel)
  refine ⟨m, c, hm, hc, ((parseClock_twelveHour sample _ "UTC" m hm.search).1 c hm hc).mpr ?_⟩
  intro w hw
  obtain rfl : ['a', '.', 'm', '.'] = w := Option.some.inj (hW ▸ hw)
  have hspaces : (['a', '.', 'm', '.'].all fun c => !isSpace c) = true := by decide
  refine fun _ => ⟨fun c hc hspace => ?_, by decide⟩
  have hnot := List.all_eq_true.mp hspaces c hc
  rw [hspace] at hnot
  cases hnot

end ReminderParser

end PersonalAssistant
