import PersonalAssistant.Reminders.WallClock
import PersonalAssistant.Reminders.Workflow

/-!
# Where an extraction comes from

`_resolve_extraction` takes the parser's answer or, for a text the parser finds no reminder in, the one
of the language model. The parser offers future instants only; nothing checks those of the model.
-/
namespace PersonalAssistant

open Lib InMemoryOutbox

variable {platform : Platform}

/-! ## The answer of the language model -/

/-- What `str`, `float` and `datetime.fromisoformat` make of a value, and which numbers are zero or below
the confidence asked for. -/
structure AnswerReader where
  /-- `str(value)` of a value that is no text. -/
  str : Json → String
  float : Json → Except PyError JsonNumber
  isZero : JsonNumber → Bool
  /-- `confidence < 0.65`. -/
  belowConfidence : JsonNumber → Bool
  fromisoformat : String → Except PyError DateTime

namespace AnswerReader

variable (r : AnswerReader)

/-- `bool(value)`. -/
def truthy : Json → Bool
  | .null => false
  | .bool b => b
  | .num n => !r.isZero n
  | .str s => s ≠ ""
  | .arr items => !items.isEmpty
  | .obj members => !members.isEmpty

/-- `data.get(key)`, where it is true. -/
def field (data : Members) (key : String) : Option Json := (data.lookup key).filter r.truthy

/-- `str(data.get(key) or "").strip()`. -/
def fieldText (data : Members) (key : String) : String :=
  match r.field data key with
  | none => ""
  | some (.str s) => strip s
  | some value => strip (r.str value)

/-- `float(data.get("confidence") or 0.0)`. -/
def confidence (data : Members) : Except PyError JsonNumber :=
  match r.field data "confidence" with
  | none => .ok ⟨"0.0", by decide, by simp⟩
  | some value => r.float value

/-- The notification of an answer: absent, naive, or aware. -/
def notification (data : Members) : Except PyError (Option (Option DateTime)) :=
  if r.fieldText data "notify_at" = "" then .ok (some none)
  else do
    let notifyAt ← r.fromisoformat (r.fieldText data "notify_at")
    return if notifyAt.offset.isNone then none else some (some notifyAt)

/-- `_reminder_extraction_from_llm`. -/
def reminderExtractionFromLlm (platform : Platform) (data : Members) (timezone : String) :
    Except PyError (Option (ReminderExtraction platform)) :=
  if (r.field data "is_reminder").isNone then .ok none
  else do
    let confidence ← r.confidence data
    if r.fieldText data "title" = "" ∨ r.fieldText data "starts_at" = "" ∨
        r.belowConfidence confidence = true then
      return none
    else
      let startsAt ← r.fromisoformat (r.fieldText data "starts_at")
      if startsAt.offset.isNone then return none
      else
        match ← r.notification data with
        | none => return none
        | some notifyAt =>
          let extraction ← ReminderExtraction.create platform (r.fieldText data "title") timezone startsAt
            notifyAt (.num confidence)
          return some extraction

/-- A text that names an instant, with its offset. -/
def Names (text : String) (t : Instant) : Prop :=
  text ≠ "" ∧ ∃ d, r.fromisoformat text = .ok d ∧ canonicalizeDatetime d = .ok t

/-- An answer that passes every check, with the instants it names. -/
structure Offers (platform : Platform) (data : Members) (timezone : String) (startsAt : Instant)
    (notifyAt : Option Instant) : Prop where
  isReminder : (r.field data "is_reminder").isSome = true
  title : trim (r.fieldText data "title") ≠ ""
  zone : trim timezone ≠ "" ∧ platform.isZone (trim timezone) = true
  startsAt : r.Names (r.fieldText data "starts_at") startsAt
  noNotifyAt : notifyAt = none → r.fieldText data "notify_at" = ""
  notifyAt : ∀ t ∈ notifyAt, r.Names (r.fieldText data "notify_at") t
  confidence : ∃ n, r.confidence data = .ok n ∧ r.belowConfidence n = false ∧
    platform.inUnitInterval n = true

end AnswerReader

/-! ## Building an extraction -/

theorem offset_ne_none_of_canonicalizeDatetime {d : DateTime} {t : Instant}
    (h : canonicalizeDatetime d = .ok t) : d.offset ≠ none := by
  intro ho
  simp [canonicalizeDatetime, ho] at h

theorem RequiredText.exists_create {value : String} :
    (∃ t, RequiredText.create value = .ok t ∧ t.text = trim value) ↔ trim value ≠ "" := by
  unfold RequiredText.create
  split_ifs with h
  · simp [h]
  · simp [h]

/-- An extraction is built exactly from required texts, a zone, aware instants and a confidence. -/
theorem ReminderExtraction.exists_create {title timezone : String} {d : DateTime} {n : Option DateTime}
    {confidence : JsonNumber} {startsAt : Instant} {notifyAt : Option Instant} :
    (∃ e, ReminderExtraction.create platform title timezone d n (.num confidence) = .ok e ∧
        e.startsAt = startsAt ∧ e.notifyAt = notifyAt) ↔
      trim title ≠ "" ∧ (trim timezone ≠ "" ∧ platform.isZone (trim timezone) = true) ∧
        canonicalizeDatetime d = .ok startsAt ∧ canonicalizeOptional n = .ok notifyAt ∧
        platform.inUnitInterval confidence = true := by
  constructor
  · rintro ⟨e, h, rfl, rfl⟩
    unfold ReminderExtraction.create at h
    obtain ⟨t, ht, h⟩ := except_bind_eq_ok.mp h
    obtain ⟨z, hz, h⟩ := except_bind_eq_ok.mp h
    obtain ⟨s, hs, h⟩ := except_bind_eq_ok.mp h
    obtain ⟨m, hm, h⟩ := except_bind_eq_ok.mp h
    obtain ⟨c, hc, h⟩ := except_bind_eq_ok.mp h
    have htz := RequiredText.create_eq_ok hz
    split_ifs at h with hzone
    cases h
    rw [htz] at hzone
    refine ⟨RequiredText.exists_create.mp ⟨t, ht, RequiredText.create_eq_ok ht⟩,
      ⟨RequiredText.exists_create.mp ⟨z, hz, htz⟩, hzone⟩, hs, hm, ?_⟩
    simp only [Confidence.read, Confidence.ofNumber] at hc
    split_ifs at hc with hunit
    exact hunit
  · rintro ⟨htitle, ⟨htz, hzone⟩, hs, hm, hunit⟩
    obtain ⟨t, ht, -⟩ := RequiredText.exists_create.mpr htitle
    obtain ⟨z, hz, hzt⟩ := RequiredText.exists_create.mpr htz
    have hzone' : platform.isZone z.text = true := by rw [hzt]; exact hzone
    refine ⟨⟨t, z, hzone', startsAt, notifyAt, ⟨confidence, hunit⟩⟩, ?_, rfl, rfl⟩
    simp [ReminderExtraction.create, ht, hz, hs, hm, Confidence.read, Confidence.ofNumber, hunit, hzone',
      pure, Except.pure]

namespace AnswerReader

variable {r : AnswerReader} {data : Members} {timezone : String} {startsAt : Instant}
  {notifyAt : Option Instant}

/-- The notification read, in UTC. -/
theorem exists_notification :
    (∃ n, r.notification data = .ok (some n) ∧ canonicalizeOptional n = .ok notifyAt) ↔
      (notifyAt = none → r.fieldText data "notify_at" = "") ∧
        ∀ t ∈ notifyAt, r.Names (r.fieldText data "notify_at") t := by
  unfold notification
  split_ifs with hempty
  · cases notifyAt with
    | none => simp [canonicalizeOptional, hempty]
    | some t => simp [canonicalizeOptional, Names, hempty]
  · cases hread : r.fromisoformat (r.fieldText data "notify_at") with
    | error e => cases notifyAt <;> simp [Names, hread, hempty]
    | ok d =>
      cases notifyAt with
      | none =>
        simp only [except_ok_bind, hempty, pure, Except.pure]
        cases ho : d.offset with
        | none => simp
        | some offset =>
          cases hc : canonicalizeDatetime d with
          | error e => simp [canonicalizeOptional, hc, Except.map]
          | ok t => simp [canonicalizeOptional, hc, Except.map]
      | some t =>
        simp only [except_ok_bind, pure, Except.pure]
        cases ho : d.offset with
        | none => simp [ho, Names, hread, canonicalizeDatetime]
        | some offset =>
          cases hc : canonicalizeDatetime d with
          | error e => simp [canonicalizeOptional, hc, Except.map, Names, hread]
          | ok t => simp [canonicalizeOptional, hc, Except.map, Names, hread, hempty]

/-- An answer becomes an extraction exactly when it passes the checks. -/
theorem extraction_iff_offers :
    (∃ e, r.reminderExtractionFromLlm platform data timezone = .ok (some e) ∧ e.startsAt = startsAt ∧
        e.notifyAt = notifyAt) ↔ r.Offers platform data timezone startsAt notifyAt := by
  constructor
  · rintro ⟨e, h, hs, hn⟩
    unfold reminderExtractionFromLlm at h
    split_ifs at h with hreminder
    · simp at h
    obtain ⟨confidence, hconf, h⟩ := except_bind_eq_ok.mp h
    split_ifs at h with hblank
    · simp [pure, Except.pure] at h
    obtain ⟨d, hd, h⟩ := except_bind_eq_ok.mp h
    split_ifs at h with hnaive
    · simp [pure, Except.pure] at h
    obtain ⟨n, hread, h⟩ := except_bind_eq_ok.mp h
    cases n with
    | none => simp [pure, Except.pure] at h
    | some n =>
      obtain ⟨e', he, h⟩ := except_bind_eq_ok.mp h
      obtain rfl : e' = e := by simpa [pure, Except.pure] using h
      obtain ⟨htitle, hzone, hstart, hnotify, hunit⟩ :=
        ReminderExtraction.exists_create.mp ⟨e', he, hs, hn⟩
      obtain ⟨hnone, hsome⟩ := exists_notification.mp ⟨n, hread, hnotify⟩
      push Not at hblank
      exact {
        isReminder := by simpa [Option.isSome_iff_ne_none] using hreminder
        title := htitle
        zone := hzone
        startsAt := ⟨hblank.2.1, d, hd, hstart⟩
        noNotifyAt := hnone
        notifyAt := hsome
        confidence := ⟨confidence, hconf, by simpa using hblank.2.2, hunit⟩ }
  · rintro ⟨hreminder, htitle, hzone, ⟨hne, d, hd, hstart⟩, hnone, hsome, confidence, hconf, hhigh, hunit⟩
    obtain ⟨n, hread, hnotify⟩ := exists_notification.mpr ⟨hnone, hsome⟩
    obtain ⟨e, he, hs, hn⟩ := ReminderExtraction.exists_create.mpr
      (⟨htitle, hzone, hstart, hnotify, hunit⟩ : _ ∧ _)
    refine ⟨e, ?_, hs, hn⟩
    have htitle' : r.fieldText data "title" ≠ "" := by
      intro hcontra
      exact htitle (by rw [hcontra]; rfl)
    have hreminder' : (r.field data "is_reminder").isNone = false := by
      simpa [Option.isSome_iff_ne_none] using hreminder
    simp [reminderExtractionFromLlm, hreminder', hconf, htitle', hne, hhigh, hd,
      offset_ne_none_of_canonicalizeDatetime hstart, hread, he, pure, Except.pure]

end AnswerReader

/-! ## Extractions that lie ahead -/

/-- The reminder starts after `now`, and is announced no later than it starts. -/
def ReminderExtraction.Ahead (e : ReminderExtraction platform) (now : Instant) : Prop :=
  now < e.startsAt ∧ ∀ notifyAt ∈ e.notifyAt, notifyAt ≤ e.startsAt

namespace ReminderParser

variable {p : ReminderParser platform} {text timezone folded : String} {zone : ZoneInfo platform}
  {now startsAt : Instant} {notifyAt : Option Instant} {e : ReminderExtraction platform}

theorem instants_of_parsed {confidence : JsonNumber}
    (h : p.parsed text zone startsAt notifyAt (.num confidence) = .ok (.parsed e)) :
    e.startsAt = startsAt ∧ e.notifyAt = notifyAt := by
  unfold parsed at h
  obtain ⟨e', he, h⟩ := except_bind_eq_ok.mp h
  obtain rfl : e' = e := by simpa [pure, Except.pure] using h
  obtain ⟨-, -, hs, hn, -⟩ := ReminderExtraction.exists_create.mp ⟨e', he, rfl, rfl⟩
  rw [canonicalizeDatetime_ofInstant] at hs
  rw [canonicalizeOptional_ofInstant] at hn
  exact ⟨(Except.ok.inj hs).symm, (Except.ok.inj hn).symm⟩

theorem lt_of_delay {minutes : Nat} (hminutes : 1 ≤ minutes)
    (h : Instant.ofMicros (now.micros + (minutes * microsPerMinute : Nat)) = .ok startsAt) :
    now < startsAt := by
  have hmicros := Instant.micros_of_ofMicros h
  rw [Instant.lt_def]
  simp only [microsPerMinute] at hmicros
  omega

/-- A delay is at least a minute. -/
theorem ahead_of_extractRelative {relatives : List Regex.Match}
    (h : p.extractRelative text folded zone now relatives = .ok (.parsed e)) : e.Ahead now := by
  unfold extractRelative at h
  split at h
  · split at h
    · cases h
    split at h
    · cases h
    rename_i amount hamount
    split at h
    · cases h
    rename_i hone
    obtain ⟨startsAt, hs, h⟩ := except_bind_eq_ok.mp h
    obtain ⟨hstart, hnotify⟩ := instants_of_parsed h
    constructor
    · rw [hstart]
      apply lt_of_delay _ hs
      split_ifs <;> omega
    · simp [hstart, hnotify]
  · cases h

theorem notifyAt_of_resolveLocal {localDatetime : Instant}
    (h : p.resolveLocal text folded zone now localDatetime = .ok (.parsed e)) : e.notifyAt = none := by
  unfold resolveLocal at h
  obtain ⟨cs, -, h⟩ := except_bind_eq_ok.mp h
  match cs, h with
  | [], h => simp [pure, Except.pure] at h
  | _ :: _ :: _, h => simp [pure, Except.pure] at h
  | [startsAt], h =>
    simp only at h
    split_ifs at h
    · simp [pure, Except.pure] at h
    · exact (instants_of_parsed h).2

/-- Whatever the parser extracts lies ahead. -/
theorem ahead_of_extractReminder
    (h : p.extractReminder text (.ofInstant now) timezone = .ok (.parsed e)) : e.Ahead now := by
  by_cases hrel : Regex.findAll p.relativeRe (p.foldText text) = []
  · obtain ⟨s, clock, d, -, hd, hresolve⟩ := clock_of_extractReminder hrel h
    obtain ⟨offset, hoffset, hnow⟩ := s.aware
    obtain rfl : (0 : Int) = offset := Option.some.inj hoffset
    have hnow : s.nowUtc = now := by
      apply Instant.micros_injective
      simp only [DateTime.ofInstant, DateTime.utcMicros, sub_zero] at hnow
      exact_mod_cast hnow
    constructor
    · rw [← hnow]
      exact (resolveLocal_parsed s.reading hd hresolve).2
    · simp [notifyAt_of_resolveLocal hresolve]
  · unfold extractReminder at h
    simp only at h
    split at h
    · cases h
    cases hzone : p.loadTimezone timezone with
    | none => simp [DateTime.ofInstant, hzone] at h
    | some zone =>
      simp only [DateTime.ofInstant, hzone] at h
      obtain ⟨nowUtc, hnow, h⟩ := except_bind_eq_ok.mp h
      have hnow : nowUtc = now := by
        apply Instant.micros_injective
        have := Instant.micros_of_ofMicros hnow
        simp only [DateTime.utcMicros, sub_zero] at this
        exact_mod_cast this
      rw [← hnow]
      exact ahead_of_extractRelative h

end ReminderParser

/-! ## Resolving an extraction -/

namespace PyError

/-- The name of the class. -/
def className : PyError → String
  | assistant .. => "AssistantError"
  | reminderIdempotencyConflict .. => "ReminderIdempotencyConflict"
  | valueError _ => "ValueError"
  | validationError _ => "ValidationError"
  | typeError _ => "TypeError"
  | overflowError _ => "OverflowError"
  | keyError _ => "KeyError"
  | runtimeError _ => "RuntimeError"
  | integrityError _ => "IntegrityError"
  | external name => name

end PyError

namespace ReminderWorkflow

variable {w : ReminderWorkflow platform} {p : ReminderParser platform} {r : AnswerReader}

/-- The workflow with this parser and this reading of the model's answers. -/
def reading (w : ReminderWorkflow platform) (p : ReminderParser platform) (r : AnswerReader) :
    ReminderWorkflow platform :=
  { w with
    extractReminder := fun text now timezone =>
      (p.extractReminder text (.ofInstant now) timezone).mapError PyError.className
    reminderExtractionFromLlm := fun data timezone =>
      (r.reminderExtractionFromLlm platform data timezone).mapError PyError.className }

theorem llm_reading : (w.reading p r).llm = w.llm := by
  simp only [reading]

theorem extractReminder_reading (text : String) (now : Instant) (timezone : String) :
    (w.reading p r).extractReminder text now timezone =
      (p.extractReminder text (.ofInstant now) timezone).mapError PyError.className := by
  simp only [reading]

/-- The model is asked: the parser finds no reminder in the text. -/
def AsksModel (w : ReminderWorkflow platform) (p : ReminderParser platform)
    (request : ReminderWorkflowInput) : Prop :=
  w.llm = true ∧ p.extractReminder request.text.text (.ofInstant request.now) request.timezone.text =
    .ok (.unsupported .notAReminder)

/-- The instants an answer names, if it passes the checks, lie ahead. -/
def OffersAhead (platform : Platform) (r : AnswerReader) (request : ReminderWorkflowInput)
    (data : Members) : Prop :=
  ∀ startsAt notifyAt, r.Offers platform data request.timezone.text startsAt notifyAt →
    request.now < startsAt ∧ ∀ t ∈ notifyAt, t ≤ startsAt

variable {σ : Type} {meaning : (c : WorkflowCall platform) → σ → c.Resp × σ} {s t : σ}
  {principal : Principal} {request : ReminderWorkflowInput} {runId : String}

/-- The call that asks the model. -/
def question (platform : Platform) (request : ReminderWorkflowInput) : WorkflowCall platform :=
  .complete "reminder_extraction" request.text.text

/-- The call that traces the answer. -/
def answerTrace (platform : Platform) (principal : Principal) (runId : String) : WorkflowCall platform :=
  .writeTrace .llmCalled principal.tenantId runId

/-- The extraction read from what the model answered. -/
def answered (w : ReminderWorkflow platform) (request : ReminderWorkflowInput) :
    Except String Members → Option (ReminderExtraction platform)
  | .ok data => (w.reminderExtractionFromLlm data request.timezone.text).toOption.join
  | .error _ => none

theorem answered_eq_some {answer : Except String Members} {e : ReminderExtraction platform} :
    (w.reading p r).answered request answer = some e ↔ ∃ data, answer = .ok data ∧
      r.reminderExtractionFromLlm platform data request.timezone.text = .ok (some e) := by
  cases answer with
  | error name => simp [answered]
  | ok data =>
    cases hread : r.reminderExtractionFromLlm platform data request.timezone.text with
    | error e' => simp [answered, reading, hread, Except.mapError, Except.toOption]
    | ok x => simp [answered, reading, hread, Except.mapError, Except.toOption]

/-- The model is asked and its answer traced; what the trace raises ends the call. -/
theorem exec_extractWithLlm :
    (w.extractWithLlm principal request runId).exec meaning s =
      match meaning (answerTrace platform principal runId) (meaning (question platform request) s).2 with
      | (.ok traceId, t) =>
        (.ok (w.answered request (meaning (question platform request) s).1, traceId), t)
      | (.error name, t) => (.error (.external name), t) := by
  unfold question answerTrace
  rcases hasked : meaning (.complete "reminder_extraction" request.text.text) s with ⟨answer, s'⟩
  rcases hwritten : meaning (.writeTrace .llmCalled principal.tenantId runId) s' with ⟨written, t⟩
  have hexec : ∀ x : Option (ReminderExtraction platform),
      (writeTrace .llmCalled principal.tenantId runId >>= fun traceId =>
        (pure (x, traceId) : WorkflowProgram platform _)).exec meaning s' =
        match (written, t) with
        | (.ok traceId, t) => (.ok (x, traceId), t)
        | (.error name, t) => (.error (.external name), t) := by
    intro x
    change (Program.ofExcept (external
      (meaning (.writeTrace .llmCalled principal.tenantId runId) s').1) >>=
      fun traceId => (pure (x, traceId) : WorkflowProgram platform _)).exec meaning
        (meaning (.writeTrace .llmCalled principal.tenantId runId) s').2 = _
    rw [hwritten]
    cases written <;> rfl
  unfold extractWithLlm
  rw [Program.perform_bind, Program.exec_call, hasked]
  cases answer with
  | error name => exact hexec none
  | ok data => exact hexec _

/-- An extraction is the parser's, or read from a traced answer of the model. -/
theorem extraction_of_resolveExtraction {resolution : Resolution platform}
    {e : ReminderExtraction platform}
    (h : ((w.reading p r).resolveExtraction principal request runId).exec meaning s =
      (.ok resolution, t)) (he : e ∈ resolution.extraction) :
    p.extractReminder request.text.text (.ofInstant request.now) request.timezone.text =
        .ok (.parsed e) ∨
      w.AsksModel p request ∧ (∃ traceId, (meaning (answerTrace platform principal runId)
          (meaning (question platform request) s).2).1 = .ok traceId) ∧
        (w.reading p r).answered request (meaning (question platform request) s).1 = some e := by
  unfold resolveExtraction at h
  rw [extractReminder_reading] at h
  rcases hparse : p.extractReminder request.text.text (.ofInstant request.now) request.timezone.text with
    e' | ⟨e' | ⟨reason, zone⟩ | reason⟩
  · rw [hparse] at h
    cases h
  · rw [hparse] at h
    cases h
    cases he
    exact .inl rfl
  · rw [hparse] at h
    cases h
    cases he
  · rw [hparse] at h
    simp only [Except.mapError, external_ok, Program.ofExcept_ok_bind] at h
    split_ifs at h with hasks
    · rw [llm_reading, Bool.and_eq_true, decide_eq_true_eq] at hasks
      rw [Program.exec_bind, exec_extractWithLlm] at h
      rcases hwritten : meaning (answerTrace platform principal runId)
        (meaning (question platform request) s).2 with ⟨traceId | traceId, t'⟩
      · rw [hwritten] at h
        cases h
      · rw [hwritten] at h
        cases h
        have asks : w.AsksModel p request := by
          refine ⟨hasks.2, ?_⟩
          rw [hparse, hasks.1]
        exact .inr ⟨asks, ⟨traceId, rfl⟩, he⟩
    · cases h
      cases he

/-- A traced answer of the model is taken as it was read. -/
theorem resolveExtraction_of_answered {traceId : String} {e : ReminderExtraction platform}
    (asks : w.AsksModel p request)
    (traced : (meaning (answerTrace platform principal runId)
      (meaning (question platform request) s).2).1 = .ok traceId)
    (read : (w.reading p r).answered request (meaning (question platform request) s).1 = some e) :
    ∃ t, ((w.reading p r).resolveExtraction principal request runId).exec meaning s =
      (.ok ⟨some e, none, some traceId⟩, t) := by
  obtain ⟨hllm, hparse⟩ := asks
  have hreader : (w.reading p r).extractReminder request.text.text request.now request.timezone.text =
      .ok (.unsupported .notAReminder) := by
    rw [extractReminder_reading, hparse]
    rfl
  have hllm' : (w.reading p r).llm = true := by rw [llm_reading, hllm]
  rcases hwritten : meaning (answerTrace platform principal runId)
    (meaning (question platform request) s).2 with ⟨written, t⟩
  rw [hwritten] at traced
  obtain rfl : written = .ok traceId := traced
  refine ⟨t, ?_⟩
  unfold resolveExtraction
  rw [hreader, external_ok, Program.ofExcept_ok_bind]
  simp only [hllm', Bool.and_true, decide_true, if_true]
  rw [Program.exec_bind, exec_extractWithLlm, hwritten, read]
  rfl

/-- Every extraction lies ahead exactly when the model, if it is asked and answers, names instants that
do. -/
theorem resolveExtraction_ahead_iff (w : ReminderWorkflow platform) (p : ReminderParser platform)
    (r : AnswerReader) (principal : Principal) (request : ReminderWorkflowInput) (runId : String)
    (meaning : (c : WorkflowCall platform) → σ → c.Resp × σ) (s : σ) :
    (∀ resolution t, ((w.reading p r).resolveExtraction principal request runId).exec meaning s =
        (.ok resolution, t) → ∀ e ∈ resolution.extraction, e.Ahead request.now) ↔
      (w.AsksModel p request → ∀ data traceId, (meaning (question platform request) s).1 = .ok data →
        (meaning (answerTrace platform principal runId)
          (meaning (question platform request) s).2).1 = .ok traceId →
        OffersAhead platform r request data) := by
  constructor
  · intro h asks data traceId hdata traced startsAt notifyAt hoffers
    obtain ⟨e, hread, rfl, rfl⟩ := AnswerReader.extraction_iff_offers.mpr hoffers
    obtain ⟨t, hexec⟩ := resolveExtraction_of_answered asks traced
      (answered_eq_some.mpr ⟨data, hdata, hread⟩)
    exact h _ _ hexec e rfl
  · intro h resolution t hexec e he
    rcases extraction_of_resolveExtraction hexec he with hparse | ⟨asks, ⟨traceId, traced⟩, hanswered⟩
    · exact ReminderParser.ahead_of_extractReminder hparse
    · obtain ⟨data, hdata, hread⟩ := answered_eq_some.mp hanswered
      exact h asks data traceId hdata traced _ _
        (AnswerReader.extraction_iff_offers.mp ⟨e, hread, rfl, rfl⟩)

/-! ### A past answer -/

def pastWorkflow : ReminderWorkflow (.ofTable []) := .sample true (.unsupported .notAReminder)

/-- A reader of decimals between 0 and 1, and of timestamps in UTC. -/
def pastReader : AnswerReader where
  str _ := ""
  float
    | .num n => .ok n
    | _ => .error (.typeError "float() argument must be a string or a real number")
  isZero n := n.text = "0.0"
  belowConfidence n := decide (n.text.toList < "0.65".toList)
  fromisoformat text :=
    match readIsoformat (.str text) with
    | some d => .ok d
    | none => .error (.valueError "Invalid isoformat string")

/-- A message of 2026 that is no reminder. -/
def pastRequest : ReminderWorkflowInput := .sample .dentist ⟨63902822400000000, by decide⟩ none

/-- A reminder for the start of 2020. -/
def pastAnswer : Members :=
  [("is_reminder", .bool true), ("title", .str "Dentista"),
    ("starts_at", .str "2020-01-01T00:00:00+00:00"), ("confidence", .num Confidence.sample.val)]

/-- The ports answer: the model with the past reminder. -/
def pastPorts : (c : WorkflowCall (.ofTable [])) → Unit → c.Resp × Unit
  | .writeTrace .., s => (.ok "trace-1", s)
  | .utcnow, s => (pastRequest.now, s)
  | .uuid4, s => (.zero, s)
  | .complete .., s => (.ok pastAnswer, s)
  | .registerOrReplay .., s => (.error (.external "OperationalError"), s)
  | .getByIdempotencyKey .., s => (.ok none, s)
  | .upsert .., s => (.error (.external "OperationalError"), s)
  | .transact .., s => (.error (.external "OperationalError"), s)

theorem pastAnswer_offers :
    pastReader.Offers (.ofTable []) pastAnswer "UTC" ⟨63713433600000000, by decide⟩ none where
  isReminder := by decide +kernel
  title := by decide +kernel
  zone := by decide +kernel
  startsAt := ⟨by decide +kernel, .ofInstant ⟨63713433600000000, by decide⟩, by rfl, by simp⟩
  noNotifyAt _ := by decide +kernel
  notifyAt _ h := by cases h
  confidence := ⟨Confidence.sample.val, by rfl, by decide +kernel, by decide +kernel⟩

theorem past_reminder_offered :
    ¬ ∀ (w : ReminderWorkflow (.ofTable [])) (p : ReminderParser (.ofTable [])) (r : AnswerReader)
      (principal : Principal) (request : ReminderWorkflowInput) (runId : String)
      (meaning : (c : WorkflowCall (.ofTable [])) → Unit → c.Resp × Unit) (s t : Unit)
      (resolution : Resolution (.ofTable [])),
      ((w.reading p r).resolveExtraction principal request runId).exec meaning s =
        (.ok resolution, t) → ∀ e ∈ resolution.extraction, e.Ahead request.now := by
  intro hall
  have hasks : pastWorkflow.AsksModel .sample pastRequest := by
    refine ⟨rfl, ?_⟩
    unfold ReminderParser.extractReminder
    exact if_pos (by decide +kernel)
  obtain ⟨e, hread, hstart, -⟩ := AnswerReader.extraction_iff_offers.mpr pastAnswer_offers
  obtain ⟨t, hexec⟩ : ∃ t, ((pastWorkflow.reading .sample pastReader).resolveExtraction .sample
      pastRequest "run-1").exec pastPorts () = (.ok ⟨some e, none, some "trace-1"⟩, t) :=
    resolveExtraction_of_answered hasks rfl (answered_eq_some.mpr ⟨_, rfl, hread⟩)
  have hlt := (hall _ _ _ _ _ _ _ _ _ _ hexec e rfl).1
  rw [hstart] at hlt
  exact absurd hlt (by decide)

end ReminderWorkflow

end PersonalAssistant
