import PersonalAssistant.Reminders.Parser
import PersonalAssistant.Reminders.Transaction

/-!
# When a reminder is sent

The requested moment reaches the scheduler as a whole number of minutes before the start, floored from
seconds in double precision. The stored moment is at most a minute after the requested one, except
where the seconds round up to a whole minute.
-/
namespace PersonalAssistant

open Lib InMemoryOutbox InMemoryReminderTransaction ReminderStores

variable {platform : Platform}

/-- The time between notification and start ends below a whole minute, by at most half the spacing of
doubles. -/
def ReminderExtraction.NoticeRoundsUp (extraction : ReminderExtraction platform) : Prop :=
  ∃ requested ∈ extraction.notifyAt, requested < extraction.startsAt ∧
    Binary64.RoundsUp (extraction.startsAt.micros - requested.micros) microsPerSecond 60

/-- Doubles are less than two microseconds apart below `2 ^ 34` seconds, some 544 years. -/
theorem ReminderExtraction.not_noticeRoundsUp_of_lt {extraction : ReminderExtraction platform}
    (h : ∀ requested ∈ extraction.notifyAt,
      extraction.startsAt.micros < requested.micros + 2 ^ 34 * microsPerSecond) :
    ¬ extraction.NoticeRoundsUp := by
  rintro ⟨requested, hr, hlt, hup⟩
  have hspan := h requested hr
  rw [Instant.lt_def] at hlt
  have hscale : 18 < Binary64.scaleOf (extraction.startsAt.micros - requested.micros)
      microsPerSecond := by
    apply Binary64.lt_scaleOf (by omega)
    simp only [microsPerSecond] at *
    omega
  have hpow := Nat.pow_le_pow_right (n := 2) (by decide) hscale
  refine Binary64.not_roundsUp (by decide) (by decide) ?_ hup
  simp only [microsPerSecond] at *
  omega

namespace ReminderWorkflow

variable (w : ReminderWorkflow platform)

/-- The notification of an extraction is never after its start; it is at the requested moment or less
than a minute later, or the default number of minutes before the start. -/
def NotifiesAsRequested (extraction : ReminderExtraction platform) (notifyAt : Instant) : Prop :=
  notifyAt ≤ extraction.startsAt ∧
    match extraction.notifyAt with
    | none =>
      notifyAt.micros + w.reminderMinutesBefore * microsPerMinute = extraction.startsAt.micros
    | some requested =>
      if requested ≤ extraction.startsAt then
        requested ≤ notifyAt ∧ notifyAt.micros < requested.micros + microsPerMinute
      else notifyAt = extraction.startsAt

variable {w} {extraction : ReminderExtraction platform}

theorem noticeMinutesBefore_nonneg : 0 ≤ w.noticeMinutesBefore extraction := by
  unfold noticeMinutesBefore
  cases extraction.notifyAt with
  | none => exact Int.natCast_nonneg _
  | some requested => dsimp only; split_ifs <;> omega

/-- The minutes are those of the exact span, or one more. -/
theorem noticeMinutesBefore_of_lt {requested : Instant} (hr : extraction.notifyAt = some requested)
    (h : requested < extraction.startsAt) :
    w.noticeMinutesBefore extraction =
      (if Binary64.RoundsUp (extraction.startsAt.micros - requested.micros) microsPerSecond 60 then
        (extraction.startsAt.micros - requested.micros) / microsPerMinute + 1
      else (extraction.startsAt.micros - requested.micros) / microsPerMinute : Nat) := by
  rw [Instant.lt_def] at h
  have hspan : ((extraction.startsAt.micros : Int) - requested.micros).toNat =
      extraction.startsAt.micros - requested.micros := by omega
  have hpos : ¬ (extraction.startsAt.micros : Int) - requested.micros ≤ 0 := by omega
  simp only [noticeMinutesBefore, hr, if_neg hpos, hspan, Instant.totalSeconds]
  rw [Binary64.floorDiv_div (by decide) (by decide) (by decide)]
  exact max_eq_left (Int.natCast_nonneg _)

theorem noticeMinutesBefore_of_le {requested : Instant} (hr : extraction.notifyAt = some requested)
    (h : extraction.startsAt ≤ requested) : w.noticeMinutesBefore extraction = 0 := by
  rw [Instant.le_def] at h
  have hneg : (extraction.startsAt.micros : Int) - requested.micros ≤ 0 := by omega
  simp only [noticeMinutesBefore, hr, if_pos hneg]

/-- A notification stored these minutes before the start is the requested one unless rounding moved
it. -/
theorem notifiesAsRequested_iff {notifyAt : Instant}
    (h : (notifyAt.micros : Int) =
      extraction.startsAt.micros - w.noticeMinutesBefore extraction * microsPerMinute) :
    w.NotifiesAsRequested extraction notifyAt ↔ ¬ extraction.NoticeRoundsUp := by
  have hle : notifyAt ≤ extraction.startsAt := by
    have hminutes : 0 ≤ w.noticeMinutesBefore extraction := noticeMinutesBefore_nonneg
    have := Int.mul_nonneg hminutes (Int.natCast_nonneg microsPerMinute)
    rw [Instant.le_def]
    omega
  unfold NotifiesAsRequested
  rw [and_iff_right hle]
  rcases hr : extraction.notifyAt with _ | requested
  · have hup : ¬ extraction.NoticeRoundsUp := by
      simp [ReminderExtraction.NoticeRoundsUp, hr]
    simp only [hup, not_false_eq_true, iff_true]
    simp only [noticeMinutesBefore, hr] at h
    omega
  · rcases lt_trichotomy requested extraction.startsAt with hlt | heq | hgt
    · have hup : extraction.NoticeRoundsUp ↔
          Binary64.RoundsUp (extraction.startsAt.micros - requested.micros) microsPerSecond 60 := by
        simp [ReminderExtraction.NoticeRoundsUp, hr, hlt]
      rw [noticeMinutesBefore_of_lt hr hlt] at h
      dsimp only
      rw [if_pos hlt.le, hup, Instant.le_def]
      rw [Instant.lt_def] at hlt
      split_ifs at h with hr'
      · simp only [hr', not_true_eq_false, iff_false]
        simp only [microsPerMinute] at h ⊢
        omega
      · simp only [hr', not_false_eq_true, iff_true]
        simp only [microsPerMinute] at h ⊢
        omega
    · rw [noticeMinutesBefore_of_le hr heq.ge] at h
      have hup : ¬ extraction.NoticeRoundsUp := by
        simp [ReminderExtraction.NoticeRoundsUp, hr, heq]
      dsimp only
      rw [if_pos heq.le, Instant.le_def, heq]
      simp only [hup, not_false_eq_true, iff_true, microsPerMinute] at h ⊢
      omega
    · rw [noticeMinutesBefore_of_le hr hgt.le] at h
      have hup : ¬ extraction.NoticeRoundsUp := by
        simp [ReminderExtraction.NoticeRoundsUp, hr, hgt.not_gt]
      simp only [if_neg hgt.not_ge, hup, not_false_eq_true, iff_true]
      exact Instant.micros_injective (by omega)

end ReminderWorkflow

namespace ApprovedRun

variable {run : ApprovedRun platform} {env : Surroundings} {principal : Principal}
  {s s' : ReminderStores platform} {extraction : ReminderExtraction platform}
  {event : CalendarEventResult} {reminder : ScheduledReminder} {notice : Int}

/-- The scheduler holds the reminder of the block, at the start less the minutes of notice. -/
theorem schedule_notifyAt {eventId body : String} {scheduler scheduler' : ReminderScheduler}
    (h : ReminderScheduler.scheduleBeforeEvent platform principal
      (run.scheduleRequest extraction eventId body) env.fresh scheduler = (.ok reminder, scheduler')) :
    scheduler'.jobsByKey.get? (principal.tenantId, run.key ++ ":notify") = some reminder ∧
      (reminder.notifyAt.micros : Int) = extraction.startsAt.micros -
        run.workflow.noticeMinutesBefore extraction * microsPerMinute := by
  obtain ⟨e, he, -⟩ | ⟨notifyAt, job, -, hn, hj, hstored⟩ :=
    ReminderScheduler.scheduleBeforeEvent_cases h
  · cases he
  have hnotify : (notifyAt.micros : Int) = extraction.startsAt.micros -
      run.workflow.noticeMinutesBefore extraction * microsPerMinute := by
    simp only [ReminderScheduler.notifyAtOf, scheduleRequest, DateTime.canonicalUtc_ofInstant] at hn
    have hmicros := Instant.micros_of_ofMicros hn
    rw [hmicros]
    simp only [microsPerMinute, microsPerSecond]
    push_cast
    ring
  obtain ⟨-, rfl⟩ := ScheduledReminder.modelValidate_eq_ok hj
  obtain ⟨stored, hget, hsame, hr, rfl⟩ | ⟨-, -, hr, rfl⟩ := hstored
  · cases hr
    simp only [ReminderScheduler.sameRequest, Bool.and_eq_true, decide_eq_true_eq] at hsame
    have heq : reminder.notifyAt = notifyAt := hsame.1.1.1.1.1.1.2
    exact ⟨hget, heq ▸ hnotify⟩
  · cases hr
    exact ⟨Dict.get?_set_self _ _ _, hnotify⟩

/-- The outbox holds a message to be sent at `notifyAt`: a new one, or one that the same write stored
before. -/
def RequestsAt (outbox outbox' : InMemoryOutbox platform) (k : Key) (notifyAt : Instant) : Prop :=
  ∃ message, outbox'.messagesByKey.get? k = some message ∧
    (message.nextAttemptAt = some notifyAt ∨
      outbox.messagesByKey.get? k = some message ∧
        ∃ requested id, outbox.fingerprints.get? k =
          some (platform.fingerprint (writeDocument requested (some notifyAt) id)))

theorem add_requestsAt {requested : CloudEvent platform} {message : OutboxMessage platform}
    {outbox outbox' : InMemoryOutbox platform} {notifyAt : Instant}
    (h : InMemoryOutbox.add principal requested (run.key ++ ":outbox") (some (.ofInstant notifyAt))
      (some run.ids.outboxMessageId) env.fresh env.storedAt outbox = (.ok message, outbox')) :
    RequestsAt outbox outbox' (principal.tenantId, run.key ++ ":outbox") notifyAt := by
  obtain ⟨e, he, -⟩ | ⟨next, -, -, hnext, hstored⟩ := InMemoryOutbox.add_cases h
  · cases he
  have hnext : next = some notifyAt := by
    simpa [canonicalOption, Except.map] using hnext.symm
  subst hnext
  obtain ⟨m, hget, hwrite, hr, rfl⟩ | ⟨m, -, hm, -, -, hr, rfl⟩ := hstored
  · exact ⟨m, hget, .inr ⟨hget, _, _, hwrite⟩⟩
  · have hmsg := (OutboxMessage.modelValidate_eq_ok hm).1
    refine ⟨m, Dict.get?_set_self _ _ _, .inl ?_⟩
    rw [hmsg]
    rfl

/-- A block that created a reminder scheduled it, and the outbox message with it, at the requested
moment, exactly when the notice does not round up. -/
theorem created_notifiesAsRequested_iff
    (h : begin_ principal (run.block env principal) s = (.ok (.created event reminder notice), s')) :
    ∃ extraction, run.extraction = some extraction ∧
      s'.scheduler.jobsByKey.get? (principal.tenantId, run.key ++ ":notify") = some reminder ∧
      RequestsAt s.outbox s'.outbox (principal.tenantId, run.key ++ ":outbox") reminder.notifyAt ∧
      reminder.notifyAt ≤ extraction.startsAt ∧
      (run.workflow.NotifiesAsRequested extraction reminder.notifyAt ↔ ¬ extraction.NoticeRoundsUp) := by
  have houtcome := outcome_of_begin h
  cases houtcome with
  | @created registration stored extraction request _ _ body created appended requested message
      calendar scheduler eventStore outbox states states' register fresh dated request_eq createEvent
      schedule created_eq append requested_eq add upsert =>
    obtain ⟨hjob, hnotify⟩ := schedule_notifyAt schedule
    have hminutes : 0 ≤ run.workflow.noticeMinutesBefore extraction :=
      ReminderWorkflow.noticeMinutesBefore_nonneg
    have hspan := Int.mul_nonneg hminutes (Int.natCast_nonneg microsPerMinute)
    refine ⟨extraction, dated, hjob, add_requestsAt add, ?_,
      ReminderWorkflow.notifiesAsRequested_iff hnotify⟩
    rw [Instant.le_def]
    omega

/-! ### A distant reminder -/

/-- A workflow with fixed replies. -/
def noticeWorkflow : ReminderWorkflow (.ofTable []) := .sample false (.unsupported .notAReminder)

def noticeIdempotency : ReminderIdempotency := ⟨.sample "event-1", .sample "Call home"⟩

def noticeRequest : ReminderWorkflowInput :=
  .sample .callHome ⟨0, Nat.zero_le _⟩ (some {
    approvalId := "approval-1", tenantId := "tenant-1", principalId := "user-1"
    action := "calendar.create_event"
    resource := noticeIdempotency.key (.ofTable []) ++ ":calendar"
    tier := .P3, approved := true, expiresAt := none, requestHash := none, trusted := true })

/-- The start of 3000, to be announced one microsecond after the start of 2025. -/
def distantExtraction : ReminderExtraction (.ofTable []) where
  title := .callHome
  timezone := .utc
  isZone := by decide
  startsAt := ⟨94639276800000000, by decide⟩
  notifyAt := some ⟨63871286400000001, by decide⟩
  confidence := .sample

/-- The approved run of that reminder. -/
def distantRun : ApprovedRun (.ofTable []) where
  workflow := noticeWorkflow
  request := noticeRequest
  idempotency := noticeIdempotency
  initialState := {
    workflowId := "wf_1", tenantId := "tenant-1", workflowType := "reminder", status := .running
    step := ReminderWorkflowStep.classify, idempotencyKey := noticeIdempotency.key (.ofTable [])
    payloadFingerprint := some (noticeIdempotency.payloadFingerprint (.ofTable []))
    data := [], createdAt := ⟨0, Nat.zero_le _⟩, updatedAt := ⟨0, Nat.zero_le _⟩ }
  extraction := some distantExtraction
  clarification := none
  baseTraceIds := []
  llmTraceId := none

/-- The moment a block stored for its reminder, in microseconds. -/
def notifyMicros : Except PyError BlockResult → Option Nat
  | .ok (.created _ reminder _) => some reminder.notifyAt.micros
  | _ => none

theorem distantRun_created : ∃ event reminder notice s',
    begin_ .sample (distantRun.block (.sample .zero) .sample) .empty =
      (.ok (.created event reminder notice), s') ∧ reminder.notifyAt.micros = 63871286400000000 := by
  have heval : notifyMicros (begin_ .sample (distantRun.block (.sample .zero) .sample) .empty).1 =
      some 63871286400000000 := by decide +kernel
  rcases hb : begin_ .sample (distantRun.block (.sample .zero) .sample) .empty with
    ⟨e | result | ⟨event, reminder, notice⟩, s'⟩
  · simp [hb, notifyMicros] at heval
  · simp [hb, notifyMicros] at heval
  · simp only [hb, notifyMicros, Option.some.injEq] at heval
    exact ⟨event, reminder, notice, s', rfl, heval⟩

theorem distant_notice_rounds_up :
    ∃ event reminder notice s', begin_ .sample (distantRun.block (.sample .zero) .sample) .empty =
        (.ok (.created event reminder notice), s') ∧
      (distantRun.workflow.NotifiesAsRequested distantExtraction reminder.notifyAt ↔
        ¬ distantExtraction.NoticeRoundsUp) := by
  obtain ⟨event, reminder, notice, s', hcreated, -⟩ := distantRun_created
  obtain ⟨extraction, hextraction, -, -, -, hiff⟩ := created_notifiesAsRequested_iff hcreated
  cases hextraction
  exact ⟨event, reminder, notice, s', hcreated, hiff⟩

theorem distant_reminder_notified_early :
    ¬ ∀ (run : ApprovedRun (.ofTable [])) (env : Surroundings) (principal : Principal)
      (s s' : ReminderStores (.ofTable [])) (extraction : ReminderExtraction (.ofTable []))
      (event : CalendarEventResult) (reminder : ScheduledReminder) (notice : Int),
      begin_ principal (run.block env principal) s = (.ok (.created event reminder notice), s') →
      run.extraction = some extraction →
      run.workflow.NotifiesAsRequested extraction reminder.notifyAt := by
  intro hall
  obtain ⟨event, reminder, notice, s', hcreated, hmicros⟩ := distantRun_created
  have hrequested := (hall _ _ _ _ _ _ _ _ _ hcreated rfl).2
  simp [distantExtraction, Instant.le_def, hmicros] at hrequested

end ApprovedRun

end PersonalAssistant
