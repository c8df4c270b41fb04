import PersonalAssistant.Reminders.Parser

/-!
# Wall clock reminders

The date a text selects, the instants of its reading, and what `extract_reminder` makes of them.
-/
namespace PersonalAssistant

open Lib

variable {platform : Platform}

theorem Instant.ofMicros_eq_ok {n : Int} {t : Instant} (h : (t.micros : Int) = n) :
    ofMicros n = .ok t := by
  have := t.le_max
  subst h
  simp [ofMicros, this]

namespace ReminderParser

variable {p : ReminderParser platform}

/-! ## Instants of a reading -/

section Candidates

variable {zone : TimeZone} {w : Instant} {cs : List Instant}

/-- Every datetime on the way from a reading to its instants and back lies in the range. -/
def InRange (zone : TimeZone) (w : Instant) : Prop :=
  ∀ fold, ∃ utc back : Instant, (utc.micros : Int) = w.micros - zone.utcoffset w.micros fold ∧
    (back.micros : Int) = zone.local_ utc.micros

theorem utcCandidate_eq_ok {fold : Bool} {r : Option Instant} (h : utcCandidate zone w fold = .ok r)
    {u : Instant} : r = some u ↔ (u.micros : Int) = w.micros - zone.utcoffset w.micros fold ∧
      zone.local_ u.micros = w.micros ∧ zone.fold u.micros = fold := by
  unfold utcCandidate at h
  obtain ⟨utc, hutc, h⟩ := except_bind_eq_ok.mp h
  obtain ⟨back, hback, h⟩ := except_bind_eq_ok.mp h
  have hutc := Instant.micros_of_ofMicros hutc
  have hback := Instant.micros_of_ofMicros hback
  have hr := Except.ok.inj h
  have hread : back = w ↔ zone.local_ utc.micros = w.micros := by
    rw [← Instant.micros_injective.eq_iff]
    omega
  rw [← hr]
  split_ifs with hcond
  · rw [hread] at hcond
    rw [Option.some.injEq]
    constructor
    · rintro rfl
      exact ⟨hutc, hcond⟩
    · rintro ⟨hu, -⟩
      apply Instant.micros_injective
      omega
  · simp only [false_iff]
    rintro ⟨hu, hread', hfold⟩
    obtain rfl : utc = u := Instant.micros_injective (by omega)
    exact hcond ⟨hread.mpr hread', hfold⟩

/-- The candidates of a reading, each found with its own fold. -/
theorem mem_utcCandidates (h : utcCandidates zone w = .ok cs) {u : Instant} : u ∈ cs ↔
    ∃ fold, (u.micros : Int) = w.micros - zone.utcoffset w.micros fold ∧
      zone.local_ u.micros = w.micros ∧ zone.fold u.micros = fold := by
  unfold utcCandidates at h
  obtain ⟨first, hfirst, h⟩ := except_bind_eq_ok.mp h
  obtain ⟨second, hsecond, h⟩ := except_bind_eq_ok.mp h
  rw [← Except.ok.inj h, List.mem_insertionSort, List.mem_dedup, List.mem_append, Option.mem_toList,
    Option.mem_toList, utcCandidate_eq_ok hfirst,
    utcCandidate_eq_ok hsecond, Bool.exists_bool]

theorem utcCandidates_of_inRange (h : InRange zone w) : ∃ cs, utcCandidates zone w = .ok cs := by
  have hcandidate : ∀ fold, ∃ r, utcCandidate zone w fold = .ok r := by
    intro fold
    obtain ⟨utc, back, hutc, hback⟩ := h fold
    exact ⟨_, by rw [utcCandidate, Instant.ofMicros_eq_ok hutc, except_ok_bind,
      Instant.ofMicros_eq_ok hback, except_ok_bind]; rfl⟩
  obtain ⟨first, hfirst⟩ := hcandidate false
  obtain ⟨second, hsecond⟩ := hcandidate true
  exact ⟨_, by rw [utcCandidates, hfirst, except_ok_bind, hsecond, except_ok_bind]; rfl⟩

theorem inRange_of_utcCandidates (h : utcCandidates zone w = .ok cs) : InRange zone w := by
  unfold utcCandidates at h
  obtain ⟨first, hfirst, h⟩ := except_bind_eq_ok.mp h
  obtain ⟨second, hsecond, -⟩ := except_bind_eq_ok.mp h
  have hrange : ∀ {fold r}, utcCandidate zone w fold = .ok r → ∃ utc back : Instant,
      (utc.micros : Int) = w.micros - zone.utcoffset w.micros fold ∧
        (back.micros : Int) = zone.local_ utc.micros := by
    intro fold r hr
    unfold utcCandidate at hr
    obtain ⟨utc, hutc, hr⟩ := except_bind_eq_ok.mp hr
    obtain ⟨back, hback, -⟩ := except_bind_eq_ok.mp hr
    exact ⟨utc, back, Instant.micros_of_ofMicros hutc, Instant.micros_of_ofMicros hback⟩
  rintro (_ | _)
  · exact hrange hfirst
  · exact hrange hsecond

/-- The first instant of a reading is a candidate. -/
theorem first_mem (h : utcCandidates zone w = .ok cs) {u : Int} (hu : zone.local_ u = w.micros) :
    ∃ c ∈ cs, (c.micros : Int) = w.micros - zone.utcoffset w.micros false := by
  obtain ⟨c, -, hc, -⟩ := inRange_of_utcCandidates h false
  refine ⟨c, (mem_utcCandidates h).mpr ⟨false, hc, ?_, ?_⟩, hc⟩
  · rw [hc]
    exact (Zone.first_of_local hu).1
  · rw [hc]
    exact Zone.fold_first hu

/-- The last instant of a reading is a candidate. -/
theorem last_mem (h : utcCandidates zone w = .ok cs) {u : Int} (hu : zone.local_ u = w.micros) :
    ∃ c ∈ cs, (c.micros : Int) = w.micros - zone.utcoffset w.micros true := by
  obtain ⟨c, -, hc, -⟩ := inRange_of_utcCandidates h true
  by_cases heq : zone.utcoffset w.micros true = zone.utcoffset w.micros false
  · rw [heq]
    exact first_mem h hu
  · refine ⟨c, (mem_utcCandidates h).mpr ⟨true, hc, ?_, ?_⟩, hc⟩
    · rw [hc]
      exact (Zone.last_of_local hu).1
    · rw [hc]
      exact (Zone.fold_last hu).mpr heq

/-- Without instants of the reading there is no candidate. -/
theorem utcCandidates_of_none (h : utcCandidates zone w = .ok cs) (hnone : ∀ u, zone.local_ u ≠ w.micros) :
    cs = [] := by
  apply List.eq_nil_iff_forall_not_mem.mpr
  intro c hc
  obtain ⟨fold, -, hread, -⟩ := (mem_utcCandidates h).mp hc
  exact hnone _ hread

/-- The single candidate is the only instant of the reading. -/
theorem local_iff_of_singleton {c : Instant} (h : utcCandidates zone w = .ok [c]) (u : Int) :
    zone.local_ u = w.micros ↔ u = c.micros := by
  constructor
  · intro hu
    obtain ⟨c₀, hc₀, hfirst⟩ := first_mem h hu
    obtain ⟨c₁, hc₁, hlast⟩ := last_mem h hu
    obtain rfl := List.mem_singleton.mp hc₀
    obtain rfl := List.mem_singleton.mp hc₁
    have hle := (Zone.first_of_local hu).2
    have hge := (Zone.last_of_local hu).2
    omega
  · rintro rfl
    obtain ⟨fold, -, hread, -⟩ := (mem_utcCandidates h).mp (List.mem_singleton_self c)
    exact hread

/-- Two instants of the reading give two candidates. -/
theorem utcCandidates_of_two (h : utcCandidates zone w = .ok cs) {u v : Int}
    (hu : zone.local_ u = w.micros) (hv : zone.local_ v = w.micros) (hne : u ≠ v) :
    ∃ a b rest, cs = a :: b :: rest := by
  match cs, h with
  | [], h =>
    obtain ⟨c, hc, -⟩ := first_mem h hu
    cases hc
  | [c], h =>
    have huc := (local_iff_of_singleton h u).mp hu
    have hvc := (local_iff_of_singleton h v).mp hv
    exact absurd (huc.trans hvc.symm) hne
  | a :: b :: rest, _ => exact ⟨a, b, rest, rfl⟩

end Candidates

/-! ## Dates -/

section Dates

variable {folded : String} {clock : ClockTime} {reference : Instant} {d e : Day} {weekday : Nat}

theorem Day.eq_of_number (h : d.number = e.number) : d = e := by
  cases d
  cases e
  cases h
  rfl

theorem at_lt (d : Day) (clock : ClockTime) : (d.at_ clock).micros < (d.number + 1) * microsPerDay := by
  have := clock.hour_lt
  have := clock.minute_lt
  simp only [Day.at_, microsPerDay, microsPerHour, microsPerMinute]
  omega

/-- A day behind a reading is not before the day of it. -/
theorem number_le_of_lt (h : reference < e.at_ clock) : (Day.ofInstant reference).number ≤ e.number := by
  have hlt := at_lt e clock
  rw [Instant.lt_def] at h
  simp only [Day.ofInstant, microsPerDay] at *
  omega

/-- A later day is behind every reading of this one. -/
theorem lt_at_of_lt (h : (Day.ofInstant reference).number < d.number) : reference < d.at_ clock := by
  rw [Instant.lt_def]
  simp only [Day.at_, Day.ofInstant, microsPerDay] at *
  omega

theorem addDays_eq_ok {days : Nat} : d.addDays days = .ok e ↔ e.number = d.number + days := by
  have hle := e.le_max
  unfold Day.addDays
  constructor
  · intro h
    split_ifs at h
    cases h
    rfl
  · intro h
    rw [dif_pos (by omega)]
    exact congrArg Except.ok (Day.eq_of_number h.symm)

theorem exists_addDays {days : Nat} (h : d.number + days ≤ e.number) : ∃ t, d.addDays days = .ok t := by
  have hle := e.le_max
  unfold Day.addDays
  rw [dif_pos (by omega)]
  exact ⟨_, rfl⟩

/-- The least day with a weekday whose reading is behind the reference. -/
structure NextWeekday (weekday : Nat) (clock : ClockTime) (reference : Instant) (d : Day) : Prop where
  falls : d.weekday = weekday
  after : reference < d.at_ clock
  least : ∀ e : Day, e.weekday = weekday → reference < e.at_ clock → d.number ≤ e.number

theorem NextWeekday.eq (h : NextWeekday weekday clock reference d)
    (h' : NextWeekday weekday clock reference e) : d = e :=
  Day.eq_of_number (le_antisymm (h.least e h'.falls h'.after) (h'.least d h.falls h.after))

/-- The distance to a weekday. -/
def daysAhead (weekday : Nat) (reference : Instant) : Nat :=
  (weekday + 7 - (Day.ofInstant reference).weekday) % 7

/-- No day with the weekday lies between the reference and the target, and none within a week of it. -/
theorem target_le (h : weekday < 7) (he : e.weekday = weekday) (hafter : reference < e.at_ clock) :
    (Day.ofInstant reference).number + daysAhead weekday reference ≤ e.number ∧
      (e.number ≠ (Day.ofInstant reference).number + daysAhead weekday reference →
        (Day.ofInstant reference).number + daysAhead weekday reference + 7 ≤ e.number) := by
  have hle := number_le_of_lt hafter
  simp only [Day.weekday, daysAhead] at *
  omega

theorem weekday_target (h : weekday < 7) :
    ((Day.ofInstant reference).number + daysAhead weekday reference) % 7 = weekday := by
  simp only [daysAhead, Day.weekday]
  omega

theorem nextWeekday_spec (h : weekday < 7) (hd : nextWeekday weekday clock reference = .ok d) :
    NextWeekday weekday clock reference d := by
  have htarget := @weekday_target reference weekday h
  unfold nextWeekday at hd
  obtain ⟨target, hadd, hd⟩ := except_bind_eq_ok.mp hd
  have hnumber : target.number = (Day.ofInstant reference).number + daysAhead weekday reference :=
    addDays_eq_ok.mp hadd
  split_ifs at hd with hle
  · -- the target is not behind the reference: the same weekday of the next week
    have hweek := addDays_eq_ok.mp hd
    refine ⟨?_, lt_at_of_lt (by omega), ?_⟩
    · unfold Day.weekday
      omega
    · intro e he hafter
      have hne : e.number ≠ target.number := by
        intro heq
        rw [Day.eq_of_number heq] at hafter
        exact absurd hle (not_le.mpr hafter)
      have := (target_le h he hafter).2 (by omega)
      omega
  · cases hd
    refine ⟨?_, not_le.mp hle, ?_⟩
    · unfold Day.weekday
      omega
    · intro e he hafter
      have := (target_le h he hafter).1
      omega

theorem nextWeekday_eq {target : Day}
    (hadd : (Day.ofInstant reference).addDays (daysAhead weekday reference) = .ok target) :
    nextWeekday weekday clock reference =
      if target.at_ clock ≤ reference then target.addDays 7 else .ok target := by
  unfold daysAhead at hadd
  unfold nextWeekday
  generalize Day.ofInstant reference = today at hadd ⊢
  dsimp only
  rw [hadd, except_ok_bind]
  rfl

/-- The day exists, so neither addition leaves the range. -/
theorem exists_nextWeekday (h : weekday < 7) (hd : NextWeekday weekday clock reference d) :
    ∃ e, nextWeekday weekday clock reference = .ok e := by
  obtain ⟨hle, hweek⟩ := target_le h hd.falls hd.after
  obtain ⟨target, hadd⟩ := exists_addDays hle
  have hnumber := addDays_eq_ok.mp hadd
  rw [nextWeekday_eq hadd]
  split_ifs with hcase
  · have hne : d.number ≠ target.number := by
      intro heq
      have hafter := hd.after
      rw [Day.eq_of_number heq] at hafter
      exact absurd hcase (not_le.mpr hafter)
    rw [← hnumber] at hweek
    exact exists_addDays (hweek hne)
  · exact ⟨target, rfl⟩

theorem nextWeekday_eq_ok (h : weekday < 7) :
    nextWeekday weekday clock reference = .ok d ↔ NextWeekday weekday clock reference d := by
  refine ⟨nextWeekday_spec h, fun hd => ?_⟩
  obtain ⟨e, he⟩ := exists_nextWeekday h hd
  rw [he, (nextWeekday_spec h he).eq hd]

/-! ## Selectors -/

/-- The date a text selects. -/
structure Selects (p : ReminderParser platform) (folded : String) (clock : ClockTime)
    (reference : Instant) (d : Day) : Prop where
  /-- One of `hoy`, `manana` and the weekdays occurs. -/
  one : (p.hasToday folded).toNat + (p.hasTomorrow folded).toNat + (p.weekdaysIn folded).length = 1
  today : p.hasToday folded = true → d = Day.ofInstant reference
  tomorrow : p.hasTomorrow folded = true → d.number = (Day.ofInstant reference).number + 1
  weekday : ∀ weekday ∈ p.weekdaysIn folded, NextWeekday weekday clock reference d

theorem lt_seven_of_mem_weekdaysIn (h : weekday ∈ p.weekdaysIn folded) : weekday < 7 := by
  obtain ⟨e, he, rfl⟩ := List.mem_map.mp h
  have hall : ∀ e ∈ spanishWeekdays, e.2 < 7 := by decide
  exact hall e (List.mem_filter.mp he).1

/-- A conflict is more than one selector. -/
theorem wallClockDate_conflict : p.wallClockDate folded clock reference =
    if 1 < (p.hasToday folded).toNat + (p.hasTomorrow folded).toNat + (p.weekdaysIn folded).length then
      .ok (.error .conflictingTemporalExpression)
    else if p.hasToday folded then .ok (.ok (some (Day.ofInstant reference)))
    else if p.hasTomorrow folded then do return .ok (some (← (Day.ofInstant reference).addDays 1))
    else match p.weekdaysIn folded with
    | [] => .ok (.ok none)
    | weekday :: _ => do return .ok (some (← nextWeekday weekday clock reference)) := by
  unfold wallClockDate
  rcases p.weekdaysIn folded with _ | ⟨weekday, _ | ⟨weekday', rest⟩⟩ <;>
    cases p.hasToday folded <;> cases p.hasTomorrow folded <;> rfl

theorem selects_of_wallClockDate (h : p.wallClockDate folded clock reference = .ok (.ok (some d))) :
    Selects p folded clock reference d := by
  rw [wallClockDate_conflict] at h
  split_ifs at h with hmany htoday htomorrow
  · simp at h
  · obtain rfl : Day.ofInstant reference = d := by simpa using h
    rw [htoday, Bool.toNat_true] at hmany
    have htomorrow : p.hasTomorrow folded = false := by
      rw [← Bool.not_eq_true]
      intro hcontra
      rw [hcontra, Bool.toNat_true] at hmany
      omega
    have hweekdays : p.weekdaysIn folded = [] := List.length_eq_zero_iff.mp (by omega)
    exact ⟨by simp [htoday, htomorrow, hweekdays], fun _ => rfl, by simp [htomorrow], by simp [hweekdays]⟩
  · obtain ⟨e, he, hd⟩ := except_bind_eq_ok.mp h
    obtain rfl : e = d := by simpa [pure, Except.pure] using hd
    rw [htomorrow, Bool.toNat_true] at hmany
    have hweekdays : p.weekdaysIn folded = [] := List.length_eq_zero_iff.mp (by omega)
    exact ⟨by simp [htoday, htomorrow, hweekdays], by simp [htoday], fun _ => addDays_eq_ok.mp he,
      by simp [hweekdays]⟩
  · split at h
    · simp at h
    · rename_i weekday rest hweekdays
      have hmem : weekday ∈ p.weekdaysIn folded := by simp [hweekdays]
      have hseven := lt_seven_of_mem_weekdaysIn hmem
      obtain ⟨e, he, hd⟩ := except_bind_eq_ok.mp h
      obtain rfl : e = d := by simpa [pure, Except.pure] using hd
      obtain rfl : rest = [] := by
        rw [hweekdays, List.length_cons] at hmany
        exact List.length_eq_zero_iff.mp (by omega)
      refine ⟨by simp [htoday, htomorrow, hweekdays], by simp [htoday], by simp [htomorrow], ?_⟩
      intro weekday' hmem
      obtain rfl : weekday' = weekday := by simpa [hweekdays] using hmem
      exact nextWeekday_spec hseven he

theorem wallClockDate_of_selects (h : Selects p folded clock reference d) :
    p.wallClockDate folded clock reference = .ok (.ok (some d)) := by
  have hone := h.one
  rw [wallClockDate_conflict, if_neg (by omega)]
  split_ifs with htoday htomorrow
  · rw [h.today htoday]
  · rw [addDays_eq_ok.mpr (h.tomorrow htomorrow)]
    rfl
  · split
    · rename_i hweekdays
      simp [htoday, htomorrow, hweekdays] at hone
    · rename_i weekday rest hweekdays
      have hmem : weekday ∈ p.weekdaysIn folded := by simp [hweekdays]
      rw [(nextWeekday_eq_ok (lt_seven_of_mem_weekdaysIn hmem)).mpr (h.weekday weekday hmem)]
      rfl

/-- The reading of a day that is not the one of the reference is behind the reference. -/
theorem Selects.after (h : Selects p folded clock reference d) (htoday : p.hasToday folded = false) :
    reference < d.at_ clock := by
  cases htomorrow : p.hasTomorrow folded with
  | true => exact lt_at_of_lt (by rw [h.tomorrow htomorrow]; omega)
  | false =>
    have hone := h.one
    rw [htoday, htomorrow] at hone
    obtain ⟨weekday, hweekdays⟩ := List.length_eq_one_iff.mp (by simpa using hone)
    exact (h.weekday weekday (by simp [hweekdays])).after

end Dates

/-! ## Reminders -/

/-- What surrounds a wall clock expression: an aware `now`, a zone, and the two readings of `now`. -/
structure Surroundings (p : ReminderParser platform) (text : String) (now : DateTime)
    (timezone : String) where
  zone : ZoneInfo platform
  loaded : p.loadTimezone timezone = some zone
  nowUtc : Instant
  aware : ∃ offset, now.offset = some offset ∧ (nowUtc.micros : Int) = now.utcMicros offset
  /-- The local reading of `now`. -/
  reference : Instant
  reading : (reference.micros : Int) = zone.rules.local_ nowUtc.micros

variable {text timezone : String} {now : DateTime}

theorem parsed_startsAt {zone : ZoneInfo platform} {startsAt : Instant} {notifyAt : Option Instant}
    {confidence : Json} {e : ReminderExtraction platform}
    (h : p.parsed text zone startsAt notifyAt confidence = .ok (.parsed e)) : e.startsAt = startsAt := by
  unfold parsed at h
  obtain ⟨e', he, h⟩ := except_bind_eq_ok.mp h
  obtain rfl : e' = e := by simpa [pure, Except.pure] using h
  unfold ReminderExtraction.create at he
  obtain ⟨_, -, he⟩ := except_bind_eq_ok.mp he
  obtain ⟨_, -, he⟩ := except_bind_eq_ok.mp he
  obtain ⟨_, hs, he⟩ := except_bind_eq_ok.mp he
  obtain ⟨_, -, he⟩ := except_bind_eq_ok.mp he
  obtain ⟨_, -, he⟩ := except_bind_eq_ok.mp he
  rw [canonicalizeDatetime_ofInstant] at hs
  split_ifs at he
  cases he
  exact (Except.ok.inj hs).symm

/-- The text speaks of a reminder and has no relative expression. -/
structure SpeaksOfClock (p : ReminderParser platform) (text : String) : Prop where
  trigger : (reminderTriggers.any fun trigger =>
    decide (trigger.toList <:+: (p.foldText text).toList)) = true
  noRelative : Regex.findAll p.relativeRe (p.foldText text) = []

/-- A text with a clock and a date is answered by the candidates of its reading. -/
theorem extractReminder_eq (s : Surroundings p text now timezone) (htext : SpeaksOfClock p text)
    {clock : ClockTime} (hclock : p.parseClock (p.foldText text) s.zone.key = some (.clock clock)) {d : Day}
    (hd : Selects p (p.foldText text) clock s.reference d) :
    p.extractReminder text now timezone =
      p.resolveLocal text (p.foldText text) s.zone s.nowUtc (d.at_ clock) := by
  obtain ⟨offset, hoffset, hnow⟩ := s.aware
  have hwall : p.extractWallClock text (p.foldText text) s.zone s.nowUtc =
      p.resolveLocal text (p.foldText text) s.zone s.nowUtc (d.at_ clock) := by
    unfold extractWallClock
    rw [hclock]
    simp only [Instant.ofMicros_eq_ok s.reading, except_ok_bind, wallClockDate_of_selects hd]
  rw [← hwall]
  simp [extractReminder, htext.trigger, hoffset, s.loaded, Instant.ofMicros_eq_ok hnow, htext.noRelative]

/-- A reminder parsed from a text without a relative expression comes from a clock and a date. -/
theorem clock_of_extractReminder {e : ReminderExtraction platform}
    (hrel : Regex.findAll p.relativeRe (p.foldText text) = [])
    (h : p.extractReminder text now timezone = .ok (.parsed e)) :
    ∃ (s : Surroundings p text now timezone) (clock : ClockTime) (d : Day),
      p.parseClock (p.foldText text) s.zone.key = some (.clock clock) ∧
      Selects p (p.foldText text) clock s.reference d ∧
      p.resolveLocal text (p.foldText text) s.zone s.nowUtc (d.at_ clock) = .ok (.parsed e) := by
  unfold extractReminder at h
  simp only [hrel] at h
  split at h
  · cases h
  cases hoffset : now.offset with
  | none => simp [hoffset] at h
  | some offset =>
    cases hzone : p.loadTimezone timezone with
    | none => simp [hoffset, hzone] at h
    | some zone =>
      simp only [hoffset, hzone] at h
      obtain ⟨nowUtc, hnow, h⟩ := except_bind_eq_ok.mp h
      simp only [ne_eq, not_true_eq_false, if_false] at h
      unfold extractWallClock at h
      cases hclock : p.parseClock (p.foldText text) zone.key with
      | none => simp [hclock] at h
      | some r =>
        cases r with
        | needsClarification _ _ => simp [hclock] at h
        | unsupported _ => simp [hclock] at h
        | clock clock =>
          simp only [hclock] at h
          obtain ⟨reference, hreading, h⟩ := except_bind_eq_ok.mp h
          obtain ⟨date, hdate, h⟩ := except_bind_eq_ok.mp h
          match date, hdate, h with
          | .error _, _, h => simp [pure, Except.pure] at h
          | .ok none, _, h => simp [pure, Except.pure] at h
          | .ok (some d), hdate, h =>
            exact ⟨⟨zone, hzone, nowUtc, ⟨offset, hoffset, Instant.micros_of_ofMicros hnow⟩, reference,
              Instant.micros_of_ofMicros hreading⟩, clock, d, hclock, selects_of_wallClockDate hdate, h⟩

/-- A parsed reminder is at the only instant of its reading, and that lies ahead. -/
theorem resolveLocal_parsed {folded : String} {zone : ZoneInfo platform} {nowUtc reference : Instant}
    {clock : ClockTime} {d : Day} {e : ReminderExtraction platform}
    (hreference : (reference.micros : Int) = zone.rules.local_ nowUtc.micros)
    (hd : Selects p folded clock reference d)
    (h : p.resolveLocal text folded zone nowUtc (d.at_ clock) = .ok (.parsed e)) :
    (∀ u : Int, zone.rules.local_ u = (d.at_ clock).micros ↔ u = e.startsAt.micros) ∧
      nowUtc < e.startsAt := by
  unfold resolveLocal at h
  obtain ⟨cs, hcs, h⟩ := except_bind_eq_ok.mp h
  match cs, hcs, h with
  | [], _, h => simp [pure, Except.pure] at h
  | _ :: _ :: _, _, h => simp [pure, Except.pure] at h
  | [startsAt], hcs, h =>
    simp only at h
    split_ifs at h with hpast
    · simp [pure, Except.pure] at h
    · rw [parsed_startsAt h]
      have honly := local_iff_of_singleton hcs
      refine ⟨honly, ?_⟩
      cases htoday : p.hasToday folded with
      | true =>
        by_contra hle
        exact hpast ⟨htoday, not_lt.mp hle⟩
      | false =>
        have hafter := Instant.lt_def.mp (hd.after htoday)
        have hread := (honly startsAt.micros).mpr rfl
        have hlt := Zone.lt_of_local_lt (z := zone.rules.toZone) (u := nowUtc.micros)
          (v := startsAt.micros) (by omega) fun u hu => (honly u).mp (hu.trans hread)
        exact Instant.lt_def.mpr (by omega)

/-- A wall clock reminder is at the only instant that reads its date and clock, the date being the one its
text selects, and lies ahead. A reading without an instant, or with two, is answered by a question. -/
theorem extractReminder_wallClock (p : ReminderParser platform) (text : String) (now : DateTime)
    (timezone : String) :
    (Regex.findAll p.relativeRe (p.foldText text) = [] →
      ∀ e, p.extractReminder text now timezone = .ok (.parsed e) →
        ∃ (s : Surroundings p text now timezone) (clock : ClockTime) (d : Day),
          p.parseClock (p.foldText text) s.zone.key = some (.clock clock) ∧
          Selects p (p.foldText text) clock s.reference d ∧
          (∀ u : Int, s.zone.rules.local_ u = (d.at_ clock).micros ↔ u = e.startsAt.micros) ∧
          s.nowUtc < e.startsAt) ∧
    (SpeaksOfClock p text → ∀ (s : Surroundings p text now timezone) (clock : ClockTime) (d : Day),
      p.parseClock (p.foldText text) s.zone.key = some (.clock clock) →
      Selects p (p.foldText text) clock s.reference d → InRange s.zone.rules (d.at_ clock) →
        ((∀ u, s.zone.rules.local_ u ≠ (d.at_ clock).micros) →
          p.extractReminder text now timezone =
            .ok (.needsClarification .nonexistentLocalTime (some s.zone.key))) ∧
        ((∃ u v, u ≠ v ∧ s.zone.rules.local_ u = (d.at_ clock).micros ∧
            s.zone.rules.local_ v = (d.at_ clock).micros) →
          p.extractReminder text now timezone =
            .ok (.needsClarification .ambiguousLocalTime (some s.zone.key)))) := by
  constructor
  · intro hrel e h
    obtain ⟨s, clock, d, hclock, hd, hresolve⟩ := clock_of_extractReminder hrel h
    obtain ⟨honly, hafter⟩ := resolveLocal_parsed s.reading hd hresolve
    exact ⟨s, clock, d, hclock, hd, honly, hafter⟩
  · intro htext s clock d hclock hd hrange
    obtain ⟨cs, hcs⟩ := utcCandidates_of_inRange hrange
    rw [extractReminder_eq s htext hclock hd]
    constructor
    · intro hnone
      obtain rfl := utcCandidates_of_none hcs hnone
      simp [resolveLocal, hcs, pure, Except.pure]
    · rintro ⟨u, v, hne, hu, hv⟩
      obtain ⟨a, b, rest, rfl⟩ := utcCandidates_of_two hcs hu hv hne
      simp [resolveLocal, hcs, pure, Except.pure]

/-- The extraction of an answer. -/
def extractionOf : Except PyError (ReminderParseResult platform) → Option (ReminderExtraction platform)
  | .ok (.parsed e) => some e
  | _ => none

theorem eq_parsed_of_extractionOf {r : Except PyError (ReminderParseResult platform)}
    (h : (extractionOf r).isSome = true) : ∃ e, r = .ok (.parsed e) := by
  unfold extractionOf at h
  split at h
  · exact ⟨_, rfl⟩
  · cases h

theorem extractReminder_wallClock_sample : ∃ e, sample.extractReminder "recuerda hoy a las 5 pm"
    (.ofInstant ⟨63763246800000000, by decide⟩) "UTC" = .ok (.parsed e) ∧
    ⟨63763246800000000, by decide⟩ < e.startsAt := by
  obtain ⟨e, he⟩ := eq_parsed_of_extractionOf (r := sample.extractReminder "recuerda hoy a las 5 pm"
    (.ofInstant ⟨63763246800000000, by decide⟩) "UTC") (by decide +kernel)
  have hrel : Regex.findAll sample.relativeRe (sample.foldText "recuerda hoy a las 5 pm") = [] :=
    List.isEmpty_iff.mp (by decide +kernel)
  obtain ⟨s, _, _, -, -, -, hlt⟩ := (extractReminder_wallClock sample _ _ _).1 hrel e he
  refine ⟨e, he, lt_of_eq_of_lt ?_ hlt⟩
  obtain ⟨offset, hoffset, hnow⟩ := s.aware
  obtain rfl : (0 : Int) = offset := Option.some.inj hoffset
  apply Instant.micros_injective
  simp only [DateTime.ofInstant, DateTime.utcMicros, sub_zero] at hnow
  exact_mod_cast hnow.symm

end ReminderParser

end PersonalAssistant
