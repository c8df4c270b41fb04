import PersonalAssistant.Domain.Unicode
import PersonalAssistant.Lib.Zone
import PersonalAssistant.Reminders.Models
import Mathlib.Data.List.Dedup
import Mathlib.Data.List.Infix
import Mathlib.Data.List.Sort

/-!
# The reminder parser

`extract_reminder`: a relative delay, or a wall clock reading on `hoy`, `manana` or a weekday. Zones are
transition lists; a naive local `datetime` is an `Instant` read as a wall clock reading.
-/
namespace PersonalAssistant

open Lib

variable {platform : Platform}

/-! ## Local time -/

def microsPerMinute : Nat := 60000000
def microsPerHour : Nat := 3600000000
def microsPerDay : Nat := 86400000000

/-- A zone whose offsets are shorter than a day. -/
structure TimeZone extends Zone where
  initial_lt : |initial| < microsPerDay
  transitions_lt : ∀ e ∈ transitions, |e.2| < microsPerDay

/-- A `ZoneInfo`. -/
structure ZoneInfo (platform : Platform) where
  key : String
  isZone : platform.isZone key = true
  rules : TimeZone

/-- A `date`, by its distance from `date.min`, a Monday. -/
structure Day where
  number : Nat
  le_max : number ≤ 3652058

structure ClockTime where
  hour : Nat
  minute : Nat
  hour_lt : hour < 24
  minute_lt : minute < 60

namespace Day

def weekday (d : Day) : Nat := d.number % 7

/-- `date + timedelta(days=days)`. -/
def addDays (d : Day) (days : Nat) : Except PyError Day :=
  if h : d.number + days ≤ 3652058 then .ok ⟨d.number + days, h⟩
  else .error (.overflowError "date value out of range")

/-- The wall clock reading `datetime.combine(date, time(hour, minute))`. -/
def at_ (d : Day) (t : ClockTime) : Instant where
  micros := d.number * microsPerDay + t.hour * microsPerHour + t.minute * microsPerMinute
  le_max := by
    have := d.le_max
    have := t.hour_lt
    have := t.minute_lt
    simp only [microsPerDay, microsPerHour, microsPerMinute, maxMicros]
    omega

/-- `datetime.date()`. -/
def ofInstant (t : Instant) : Day where
  number := t.micros / microsPerDay
  le_max := by
    have := t.le_max
    simp only [microsPerDay, maxMicros] at *
    omega

end Day

/-! ## Rules -/

def spanishWeekdays : List (String × Nat) :=
  [("lunes", 0), ("martes", 1), ("miercoles", 2), ("jueves", 3), ("viernes", 4), ("sabado", 5),
    ("domingo", 6)]

def reminderTriggers : List String := ["recuerd", "record", "agend", "cita", "recordatorio"]

def spanishNumberWords : List (String × Nat) :=
  [("un", 1), ("una", 1), ("uno", 1), ("dos", 2), ("tres", 3), ("cuatro", 4), ("cinco", 5), ("seis", 6),
    ("siete", 7), ("ocho", 8), ("nueve", 9), ("diez", 10), ("once", 11), ("doce", 12), ("quince", 15),
    ("treinta", 30), ("sesenta", 60)]

/-- The parser's surroundings. -/
structure ReminderParser (platform : Platform) where
  unicode : Unicode
  /-- The rules of the zones the platform finds. -/
  rules : (name : String) → platform.isZone name = true → TimeZone

namespace ReminderParser

variable (p : ReminderParser platform)

section Expressions

open Regex

/-- Both spellings of a letter, ignoring case. -/
def accented (plain accent capital : Char) : Regex :=
  char fun c => foldsTo plain c || c == accent || c == capital

/-- `[a-z]`, ignoring case. -/
def letter : Regex := char foldsToLetter

def plural (s : String) : Regex := seq (textFold s) (opt (textFold "s"))

/-- A word of a list, as a whole word. -/
def wholeWord (words : List Regex) : Regex :=
  concat [p.unicode.boundary, choice words, p.unicode.boundary]

/-- `RELATIVE_RE`, its amount group 1 and its unit group 2. -/
def relativeRe : Regex :=
  concat [p.unicode.boundary,
    choice [textFold "en", concat [textFold "dentro", plus Unicode.space, textFold "de"]],
    plus Unicode.space,
    group 1 (choice [between 1 4 p.unicode.digit, plus letter]),
    star Unicode.space,
    group 2 (choice [plural "minuto", plural "min", plural "hora", textFold "h"]),
    p.unicode.boundary]

/-- `a las`, `a la`, `las`, `la` or `a`. -/
def clockPrefix : Regex :=
  choice [concat [textFold "a", plus Unicode.space, plural "la"], plural "la", textFold "a"]

def hourGroup : Nat := 1
def minuteGroup : Nat := 2
def meridiemGroup : Nat := 3

/-- `(?:a|p)\s*\.?\s*m\.?`. -/
def meridiemRe : Regex :=
  concat [choice [textFold "a", textFold "p"], star Unicode.space, opt (lit '.'), star Unicode.space,
    textFold "m", opt (lit '.')]

/-- `WALL_CLOCK_RE`. -/
def wallClockRe : Regex :=
  concat [p.unicode.boundary, clockPrefix, plus Unicode.space,
    group hourGroup (between 1 2 p.unicode.digit),
    opt (seq (lit ':') (group minuteGroup (star p.unicode.digit))),
    opt (seq (star Unicode.space) (group meridiemGroup meridiemRe)),
    notAhead fun c => c == ':' || p.unicode.isWord c]

/-- A character that may end a clock candidate. -/
def endsCandidate (c : Char) : Bool := isSpace c || ",;.!?)]".toList.contains c || c.toNat == 0x7D

/-- `WALL_CLOCK_CANDIDATE_RE`. -/
def wallClockCandidateRe : Regex :=
  concat [p.unicode.boundary, clockPrefix, plus Unicode.space, p.unicode.digit,
    star (char fun c => !endsCandidate c)]

/-- `MIDNIGHT_RE`. -/
def midnightRe : Regex :=
  concat [p.unicode.boundary,
    opt (concat [textFold "a", plus Unicode.space, textFold "la", plus Unicode.space]),
    textFold "medianoche", p.unicode.boundary]

/-- A word behind an optional `al`. -/
def noonOf (word : Regex) : Regex :=
  concat [p.unicode.boundary, opt (concat [textFold "al", plus Unicode.space]), word,
    p.unicode.boundary]

/-- `NOON_RE`. -/
def noonRe : Regex := p.noonOf (textFold "mediodia")

/-- `TITLE_STOPWORDS_RE`. -/
def titleStopwordsRe : Regex :=
  p.wholeWord [concat [textFold "recu", accented 'e' 'é' 'É', textFold "rdame"],
    textFold "recuerdame", textFold "recuerdes", textFold "recordarme", textFold "recordatorio",
    concat [textFold "ag", accented 'e' 'é' 'É', textFold "ndame"], textFold "agendame",
    textFold "agendarme", textFold "agenda", textFold "agendar", textFold "necesito",
    textFold "quiero", textFold "que", textFold "me", textFold "el", textFold "la", textFold "los",
    textFold "las", textFold "este", textFold "esta", textFold "de", textFold "para"]

/-- `TITLE_DATE_RE`. -/
def titleDateRe : Regex :=
  p.wholeWord [textFold "hoy", concat [textFold "ma", accented 'n' 'ñ' 'Ñ', textFold "ana"],
    textFold "lunes", textFold "martes",
    concat [textFold "mi", accented 'e' 'é' 'É', textFold "rcoles"], textFold "jueves",
    textFold "viernes", concat [textFold "s", accented 'a' 'á' 'Á', textFold "bado"],
    textFold "domingo"]

/-- A word without accents, case included. -/
def wordRe (word : String) : Regex := p.wholeWord [text word]

end Expressions

/-- `_fold_text`. -/
def foldText (text : String) : String :=
  String.ofList ((p.unicode.nfkd (platform.casefold text)).toList.filter fun c =>
    !p.unicode.combining c)

/-- `_clean_title`. -/
def cleanTitle (text : String) : String :=
  let title := Regex.replaceAll p.relativeRe " " text
  let title := Regex.replaceAll p.wallClockRe " " title
  let title := Regex.replaceAll p.midnightRe " " title
  let title := Regex.replaceAll (p.noonOf (.concat [.textFold "mediod", accented 'i' 'í' 'Í',
    .textFold "a"])) " " title
  let title := Regex.replaceAll p.titleDateRe " " title
  let title := Regex.replaceAll p.titleStopwordsRe " " title
  let title := stripBy (" .,:;-".toList.contains ·) (Regex.replaceAll (.plus Unicode.space) " " title)
  if title = "" then "Recordatorio" else title

/-- `_parse_amount`. -/
def parseAmount (raw : List Char) : Option Nat :=
  if raw ≠ [] ∧ raw.all p.unicode.isDigit then some (p.unicode.int raw)
  else spanishNumberWords.lookup (String.ofList raw)

/-- `_load_timezone`, for names whose zone file is loaded or missing. Left out are names of directories of
the zone database, such as `America`, on which the library raises `IsADirectoryError`. -/
def loadTimezone (timezone : String) : Option (ZoneInfo platform) :=
  if h : platform.isZone (strip timezone) = true then some ⟨strip timezone, h, p.rules _ h⟩ else none

/-- What a clock expression says. -/
inductive ClockResult where
  | clock (time : ClockTime)
  | needsClarification (reason : ReminderClarificationReason) (timezone : String)
  | unsupported (reason : ReminderUnsupportedReason)

def hourOf (m : Regex.Match) : Nat := p.unicode.int ((m.group hourGroup).getD [])

def minuteOf (m : Regex.Match) : Nat := p.unicode.int ((m.group minuteGroup).getD [])

/-- The meridiem without dots and spaces. -/
def cleanMeridiem (raw : List Char) : List Char := raw.filter fun c => c != '.' && c != ' '

/-- The hour of an `am` reading. -/
def amHour (hour : Nat) : Nat := if hour = 12 then 0 else hour

/-- The hour of any other reading. -/
def pmHour (hour : Nat) : Nat := if hour = 12 then 12 else hour + 12

theorem amHour_eq {hour : Nat} (h : hour ≤ 12) : amHour hour = hour % 12 := by
  unfold amHour
  split_ifs <;> omega

theorem pmHour_eq {hour : Nat} (h : hour ≤ 12) : pmHour hour = 12 + hour % 12 := by
  unfold pmHour
  split_ifs <;> omega

theorem amHour_lt {hour : Nat} (h : hour ≤ 12) : amHour hour < 24 := by
  rw [amHour_eq h]
  omega

theorem pmHour_lt {hour : Nat} (h : hour ≤ 12) : pmHour hour < 24 := by
  rw [pmHour_eq h]
  omega

/-- The end of `_parse_clock`: the reading of a match that covers its candidate. -/
def readClock (m : Regex.Match) (timezone : String) : ClockResult :=
  if (m.group minuteGroup).any fun raw => raw.length != 2 then .unsupported .invalidTime
  else if hm : p.minuteOf m < 60 then
    match m.group meridiemGroup with
    | some raw =>
      if h : 1 ≤ p.hourOf m ∧ p.hourOf m ≤ 12 then
        if cleanMeridiem raw = ['a', 'm'] then
          .clock ⟨amHour (p.hourOf m), p.minuteOf m, amHour_lt h.2, hm⟩
        else .clock ⟨pmHour (p.hourOf m), p.minuteOf m, pmHour_lt h.2, hm⟩
      else .unsupported .invalidTime
    | none =>
      if 1 ≤ p.hourOf m ∧ p.hourOf m ≤ 12 then .needsClarification .ambiguousHour timezone
      else if h : p.hourOf m < 24 then .clock ⟨p.hourOf m, p.minuteOf m, h, hm⟩
      else .unsupported .invalidTime
  else .unsupported .invalidTime

/-- `_parse_clock`. -/
def parseClock (folded timezone : String) : Option ClockResult :=
  let candidates := Regex.findAll p.wallClockCandidateRe folded
  let midnights := Regex.findAll p.midnightRe folded
  let noons := Regex.findAll p.noonRe folded
  if candidates.length + midnights.length + noons.length > 1 then
    some (.unsupported .conflictingTemporalExpression)
  else if midnights ≠ [] then some (.clock ⟨0, 0, by decide, by decide⟩)
  else if noons ≠ [] then some (.clock ⟨12, 0, by decide, by decide⟩)
  else match candidates with
  | [] => none
  | candidate :: _ =>
    match Regex.search p.wallClockRe folded with
    | none => some (.unsupported .invalidTime)
    | some m =>
      if m.startPos ≠ candidate.startPos ∨ m.endPos < candidate.endPos then
        some (.unsupported .invalidTime)
      else some (p.readClock m timezone)

/-- One round of `_utc_candidates`. -/
def utcCandidate (zone : TimeZone) (localDatetime : Instant) (fold : Bool) :
    Except PyError (Option Instant) := do
  let utc ← Instant.ofMicros (localDatetime.micros - zone.utcoffset localDatetime.micros fold)
  let roundTrip ← Instant.ofMicros (zone.local_ utc.micros)
  return if roundTrip = localDatetime ∧ zone.fold utc.micros = fold then some utc else none

/-- `_utc_candidates`. -/
def utcCandidates (zone : TimeZone) (localDatetime : Instant) : Except PyError (List Instant) := do
  let first ← utcCandidate zone localDatetime false
  let second ← utcCandidate zone localDatetime true
  return (first.toList ++ second.toList).dedup.insertionSort (· ≤ ·)

/-- `_weekdays_in`. -/
def weekdaysIn (text : String) : List Nat :=
  (spanishWeekdays.filter fun e => Regex.occursIn (p.wordRe e.1) text).map Prod.snd

def hasToday (text : String) : Bool := Regex.occursIn (p.wordRe "hoy") text

def hasTomorrow (text : String) : Bool := Regex.occursIn (p.wordRe "manana") text

/-- `_has_date_selector`. -/
def hasDateSelector (text : String) : Bool :=
  Regex.occursIn (p.wholeWord [.text "hoy", .text "manana"]) text || p.weekdaysIn text ≠ []

/-- `_has_wall_clock`. -/
def hasWallClock (text : String) : Bool :=
  [p.wallClockCandidateRe, p.midnightRe, p.noonRe].any (Regex.occursIn · text)

/-- The first day with a weekday whose reading is after the reference. -/
def nextWeekday (weekday : Nat) (clock : ClockTime) (reference : Instant) : Except PyError Day := do
  let referenceDate := Day.ofInstant reference
  let target ← referenceDate.addDays ((weekday + 7 - referenceDate.weekday) % 7)
  if target.at_ clock ≤ reference then target.addDays 7 else return target

/-- `_wall_clock_date`: a date, a conflict, or no date at all. -/
def wallClockDate (folded : String) (clock : ClockTime) (reference : Instant) :
    Except PyError (Except ReminderUnsupportedReason (Option Day)) := do
  let weekdays := p.weekdaysIn folded
  let selectors := (p.hasToday folded).toNat + (p.hasTomorrow folded).toNat + weekdays.head?.isSome.toNat
  if weekdays.length > 1 then return .error .conflictingTemporalExpression
  else if selectors > 1 then return .error .conflictingTemporalExpression
  else if p.hasToday folded then return .ok (some (Day.ofInstant reference))
  else if p.hasTomorrow folded then return .ok (some (← (Day.ofInstant reference).addDays 1))
  else match weekdays with
  | [] => return .ok none
  | weekday :: _ => return .ok (some (← nextWeekday weekday clock reference))

/-- A parsed extraction. -/
def parsed (text : String) (zone : ZoneInfo platform) (startsAt : Instant) (notifyAt : Option Instant)
    (confidence : Json) : Except PyError (ReminderParseResult platform) := do
  let extraction ← ReminderExtraction.create platform (p.cleanTitle text) zone.key (.ofInstant startsAt)
    (notifyAt.map .ofInstant) confidence
  return .parsed extraction

/-- The relative branch of `extract_reminder`. -/
def extractRelative (text folded : String) (zone : ZoneInfo platform) (nowUtc : Instant)
    (relatives : List Regex.Match) : Except PyError (ReminderParseResult platform) :=
  match relatives with
  | [m] =>
    if p.hasDateSelector folded || p.hasWallClock folded then
      .ok (.unsupported .conflictingTemporalExpression)
    else match p.parseAmount ((m.group 1).getD []) with
    | none => .ok (.unsupported .invalidRelativeAmount)
    | some amount =>
      if amount < 1 then .ok (.unsupported .invalidRelativeAmount)
      else do
        let minutes := if ((m.group 2).getD []).head? = some 'h' then amount * 60 else amount
        let startsAt ← Instant.ofMicros (nowUtc.micros + (minutes * microsPerMinute : Nat))
        p.parsed text zone startsAt (some startsAt) (.num ⟨"0.88", by decide, by simp⟩)
  | _ => .ok (.unsupported .conflictingTemporalExpression)

theorem wallClockText_ne : "0.86" ≠ "" := by decide

theorem wallClockText_chars : ∀ c ∈ "0.86".toList, c.isDigit ∨ c ∈ ['-', '+', '.', 'e', 'E'] := by simp

/-- The end of `extract_reminder`, once the wall clock reading is known. -/
def resolveLocal (text folded : String) (zone : ZoneInfo platform) (nowUtc localDatetime : Instant) :
    Except PyError (ReminderParseResult platform) := do
  match ← utcCandidates zone.rules localDatetime with
  | [] => return .needsClarification .nonexistentLocalTime (some zone.key)
  | [startsAt] =>
    if p.hasToday folded ∧ startsAt ≤ nowUtc then return .unsupported .pastTime
    else p.parsed text zone startsAt none (.num ⟨"0.86", wallClockText_ne, wallClockText_chars⟩)
  | _ => return .needsClarification .ambiguousLocalTime (some zone.key)

/-- The wall clock branch of `extract_reminder`. -/
def extractWallClock (text folded : String) (zone : ZoneInfo platform) (nowUtc : Instant) :
    Except PyError (ReminderParseResult platform) :=
  match p.parseClock folded zone.key with
  | some (.needsClarification reason timezone) => .ok (.needsClarification reason (some timezone))
  | some (.unsupported reason) => .ok (.unsupported reason)
  | none => .ok (.needsClarification
      (if p.hasDateSelector folded then .missingTime else .missingDatetime) (some zone.key))
  | some (.clock clock) => do
    let reference ← Instant.ofMicros (zone.rules.local_ nowUtc.micros)
    match ← p.wallClockDate folded clock reference with
    | .error reason => return .unsupported reason
    | .ok none => return .needsClarification .missingDate (some zone.key)
    | .ok (some date) => p.resolveLocal text folded zone nowUtc (date.at_ clock)

/-- `extract_reminder`. -/
def extractReminder (text : String) (now : DateTime) (timezone : String) :
    Except PyError (ReminderParseResult platform) :=
  let folded := p.foldText text
  if !reminderTriggers.any fun trigger => decide (trigger.toList <:+: folded.toList) then
    .ok (.unsupported .notAReminder)
  else match now.offset with
  | none => .ok (.unsupported .invalidReferenceInstant)
  | some offset =>
    match p.loadTimezone timezone with
    | none => .ok (.needsClarification .invalidTimezone (some (trim timezone)))
    | some zone => do
      let nowUtc ← Instant.ofMicros (now.utcMicros offset)
      let relatives := Regex.findAll p.relativeRe folded
      if relatives ≠ [] then p.extractRelative text folded zone nowUtc relatives
      else p.extractWallClock text folded zone nowUtc

/-! ## A parser to evaluate on -/

/-- The rules of Bogota, five hours behind UTC, in every zone. -/
def bogota : TimeZone where
  initial := -18000000000
  transitions := []
  spaced := trivial
  initial_lt := by decide
  transitions_lt := by simp

def sample : ReminderParser (Platform.ofTable []) := ⟨.ascii, fun _ _ => bogota⟩

end ReminderParser

end PersonalAssistant
