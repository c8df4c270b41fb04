import PersonalAssistant.Reminders.Models
import PersonalAssistant.UnitOfWork

/-!
# The transaction of an approved run

The block `ReminderWorkflow.run` executes inside the unit of work: register or resume the workflow
state, then replay, ask for clarification, or write calendar event, reminder, events and outbox message
together with the completed state. Every store operation of the block may fail.
-/
namespace PersonalAssistant

open Lib InMemoryOutbox InMemoryReminderTransaction ReminderStores

variable {platform : Platform} {α : Type}

/-- The workflow's configuration and the text analyses it calls. Nothing in this development depends on
what the analyses answer. -/
structure ReminderWorkflow (platform : Platform) where
  llm : Bool
  reminderMinutesBefore : Nat
  one_le_reminderMinutesBefore : 1 ≤ reminderMinutesBefore
  replies : AssistantReplies
  scanPrompt : String → Except String GuardrailResult
  scanOutput : String → Except String GuardrailResult
  extractReminder : String → Instant → String → Except String (ReminderParseResult platform)
  reminderExtractionFromLlm : Members → String → Except String (Option (ReminderExtraction platform))

/-- A workflow with fixed replies and an analysis that always answers the same, to evaluate on. -/
def ReminderWorkflow.sample (llm : Bool) (parsed : ReminderParseResult platform) : ReminderWorkflow platform where
  llm
  reminderMinutesBefore := 10
  one_le_reminderMinutesBefore := by decide
  replies := ⟨fun key => .ok key, fun key _ => .ok key⟩
  scanPrompt _ := .ok ⟨[]⟩
  scanOutput _ := .ok ⟨[]⟩
  extractReminder _ _ _ := .ok parsed
  reminderExtractionFromLlm _ _ := .ok none

/-! ## Results -/

/-- The fields every result of a run shares; the others at their defaults. -/
def ReminderIdempotency.result (platform : Platform) (i : ReminderIdempotency)
    (traceIds : List String) (status : AgentStatus) (intent : ReminderIntent) (reply : String) :
    ReminderWorkflowResult where
  status := status
  intent := intent
  reply := reply
  idempotencyKey := i.key platform
  sourceEventId := i.identity.sourceEventId
  payloadFingerprint := i.payloadFingerprint platform
  timezone := i.payload.timezone
  clarification := none
  approvalRequired := false
  calendarEventId := none
  reminderId := none
  reused := false
  traceIds := traceIds

/-- What the result of a replayed registration is made of, besides its reply. -/
structure Replay where
  status : AgentStatus
  intent : ReminderIntent
  clarification : Option ReminderClarificationReason
  approvalRequired : Bool
  calendarEventId : Option Json
  reminderId : Option Json

/-- A field of type `str | None`. -/
def readOptionalText : Option Json → Except PyError (Option String)
  | none => .ok none
  | some .null => .ok none
  | some (.str s) => .ok (some s)
  | some _ => .error (.validationError "Input should be a valid string")

def Replay.result (platform : Platform) (i : ReminderIdempotency) (traceIds : List String)
    (replay : Replay) (reply : String) : Except PyError ReminderWorkflowResult := do
  let calendarEventId ← readOptionalText replay.calendarEventId
  let reminderId ← readOptionalText replay.reminderId
  ReminderWorkflowResult.validate platform
    { i.result platform traceIds replay.status replay.intent reply with
      clarification := replay.clarification
      approvalRequired := replay.approvalRequired
      calendarEventId := calendarEventId
      reminderId := reminderId
      reused := true }

namespace ReminderWorkflow

variable (w : ReminderWorkflow platform)

/-- The branches of `_registration_result`: the reply text and the rest of the result. -/
def replayOf (registration : WorkflowStateRegistration) : Except PyError (Option (String × Replay)) :=
  let existing := registration.state
  if !registration.replayed then return none
  else match existing.status with
  | .completed => do
    let reply ← external w.replies.reminderDuplicate
    return some (reply, ⟨.completed, .create, none, false, existing.data.lookup "calendar_event_id",
      existing.data.lookup "reminder_id"⟩)
  | .running => do
    let reply ← external w.replies.reminderDuplicate
    return some (reply, ⟨.escalated, .create, none, false, none, none⟩)
  | .failed => do
    let reply ← external w.replies.reminderDuplicate
    return some (reply, ⟨.failed, .create, none, false, none, none⟩)
  | .pending => return none
  | .waitingApproval =>
    if existing.step = ReminderWorkflowStep.approvalRequired then do
      let draft ← ReminderDraft.fromMapping platform existing.data
      let reply ← external (w.replies.reminderNeedsApproval draft.title.text)
      return some (reply, ⟨.escalated, .create, none, true, none, none⟩)
    else do
      let reason := ReminderClarificationReason.ofData existing.data
      let reply ← external (w.replies.reminderClarification reason)
      return some (reply, ⟨.needsClarification, .unsupported, some reason, false, none, none⟩)

/-- The data stored with a request for clarification. -/
def clarificationData (reason : ReminderClarificationReason) : Members :=
  [("clarification_reason", .str reason.value),
    ("clarification_reply_id", .str ("reminder_" ++ reason.value)),
    ("clarification_reply_version", .str "v1")]

/-- `_notice_minutes_before`. -/
def noticeMinutesBefore (extraction : ReminderExtraction platform) : Int :=
  match extraction.notifyAt with
  | none => w.reminderMinutesBefore
  | some notifyAt =>
    let before : Int := extraction.startsAt.micros - notifyAt.micros
    if before ≤ 0 then 0 else max ((Instant.totalSeconds before.toNat).floorDiv 60 : Int) 0

end ReminderWorkflow

/-! ## The block -/

/-- What `run` has computed when it enters the block. -/
structure ApprovedRun (platform : Platform) where
  workflow : ReminderWorkflow platform
  request : ReminderWorkflowInput
  idempotency : ReminderIdempotency
  initialState : WorkflowState
  extraction : Option (ReminderExtraction platform)
  clarification : Option ReminderClarificationReason
  baseTraceIds : List String
  llmTraceId : Option String

inductive StoreOperation where
  | register
  | createEvent
  | schedule
  | append
  | add
  | upsert
  | commit
deriving DecidableEq, Repr

/-- What happens to a block from outside: clock readings and identifiers it draws, whether the trace of
its guarded reply is written, and the store operations that fail. -/
structure Surroundings where
  registeredAt : Instant
  approvedAt : Instant
  createdAt : Instant
  requestedAt : Instant
  storedAt : Instant
  transitionedAt : Instant
  fresh : Uuid
  trace : Except String Unit
  faults : StoreOperation → Option String

/-- Nothing fails, and the clock stands still; to evaluate on. -/
def Surroundings.sample (fresh : Uuid) : Surroundings where
  registeredAt := ⟨0, Nat.zero_le _⟩
  approvedAt := ⟨0, Nat.zero_le _⟩
  createdAt := ⟨0, Nat.zero_le _⟩
  requestedAt := ⟨0, Nat.zero_le _⟩
  storedAt := ⟨0, Nat.zero_le _⟩
  transitionedAt := ⟨0, Nat.zero_le _⟩
  fresh
  trace := .ok ()
  faults _ := none

/-- How a block ended after its commit. -/
inductive BlockResult where
  | returned (result : ReminderWorkflowResult)
  | created (event : CalendarEventResult) (reminder : ScheduledReminder) (noticeMinutesBefore : Int)

namespace ApprovedRun

variable (run : ApprovedRun platform) (env : Surroundings)

def key : String := run.idempotency.key platform
def ids : ReminderEffectIds := run.idempotency.effectIds platform
def fingerprint : String := run.idempotency.payloadFingerprint platform
def sourceEventId : String := run.idempotency.identity.sourceEventId

/-- A store operation of the block, which the surroundings may let fail. -/
def attempt (op : StoreOperation) (x : Block platform α) : Block platform α :=
  match env.faults op with
  | some name => .raise (.external name)
  | none => x

/-- `_guarded_reply` inside the block. -/
def guardedReply (text : String) : Except PyError String := do
  let outputScan ← external (run.workflow.scanOutput text)
  external env.trace
  outputScan.enforceOutputScan
  return text

/-- `_registration_result` inside the block. -/
def registrationResult (registration : WorkflowStateRegistration) :
    Except PyError (Option ReminderWorkflowResult) := do
  match ← run.workflow.replayOf registration with
  | none => return none
  | some (text, replay) =>
    let reply ← run.guardedReply env text
    let result ← replay.result platform run.idempotency run.baseTraceIds reply
    return some result

def clarificationReason : ReminderClarificationReason := run.clarification.getD .missingDatetime

/-- The clarification branch. -/
def clarify (principal : Principal) (state : WorkflowState) : Block platform BlockResult := do
  let reason := run.clarificationReason
  let text ← .ofExcept (external (run.workflow.replies.reminderClarification reason))
  let reply ← .ofExcept (run.guardedReply env text)
  let waiting := state.transition .waitingApproval (some ReminderWorkflowStep.needsClarification)
    (ReminderWorkflow.clarificationData reason) env.transitionedAt
  let _ ← attempt env .upsert (store (onStates (InMemoryWorkflowStateStore.upsert platform principal
    waiting)))
  attempt env .commit commit
  let result ← .ofExcept (ReminderWorkflowResult.validate platform
    { run.idempotency.result platform (run.baseTraceIds ++ run.llmTraceId.toList) .needsClarification
        .unsupported reply with
      clarification := some reason })
  return .returned result

def scheduleRequest (extraction : ReminderExtraction platform) (calendarEventId body : String) :
    ReminderScheduler.ScheduleRequest where
  calendarEventId := calendarEventId
  startsAt := .ofInstant extraction.startsAt
  channel := run.request.channel.value
  recipient := run.request.recipient.text
  body := body
  timezone := extraction.timezone.text
  sourceEventId := run.sourceEventId
  payloadFingerprint := run.fingerprint
  minutesBefore := run.workflow.noticeMinutesBefore extraction
  idempotencyKey := run.key ++ ":notify"
  reminderId := some run.ids.reminderId

def reminderCreated (principal : Principal) (extraction : ReminderExtraction platform)
    (calendarEventId : String) (reminder : ScheduledReminder) : CloudEventFields where
  id := run.ids.reminderCreatedEventId
  specversion := "1.0"
  type := "reminder.created"
  source := "personal_assistant.application.reminders"
  subject := some reminder.reminderId
  tenantId := principal.tenantId
  correlationId := run.key
  causationId := some run.sourceEventId
  sourceEventId := some run.sourceEventId
  payloadFingerprint := some run.fingerprint
  timezone := some extraction.timezone.text
  data := [("calendar_event_id", .str calendarEventId),
    ("notify_at", .str reminder.notifyAt.isoformat), ("payload_fingerprint", .str run.fingerprint),
    ("reminder_id", .str reminder.reminderId), ("source_event_id", .str run.sourceEventId),
    ("starts_at", .str extraction.startsAt.isoformat), ("timezone", .str extraction.timezone.text)]
  time := env.createdAt

def notificationRequested (principal : Principal) (extraction : ReminderExtraction platform)
    (calendarEventId : String) (reminder : ScheduledReminder) : CloudEventFields where
  id := run.ids.notificationRequestedEventId
  specversion := "1.0"
  type := "notification.requested"
  source := "personal_assistant.application.reminders"
  subject := some reminder.reminderId
  tenantId := principal.tenantId
  correlationId := run.key
  causationId := some run.ids.reminderCreatedEventId
  sourceEventId := some run.sourceEventId
  payloadFingerprint := some run.fingerprint
  timezone := some extraction.timezone.text
  data := [("body", .str reminder.body), ("calendar_event_id", .str calendarEventId),
    ("channel", .str run.request.channel.value), ("notify_at", .str reminder.notifyAt.isoformat),
    ("payload_fingerprint", .str run.fingerprint), ("recipient", .str run.request.recipient.text),
    ("reminder_id", .str reminder.reminderId), ("source_event_id", .str run.sourceEventId),
    ("timezone", .str extraction.timezone.text)]
  time := env.requestedAt

/-- The data stored with the completed state. -/
def completedData (extraction : ReminderExtraction platform) (calendarEventId : String)
    (reminder : ScheduledReminder) : Members :=
  [("calendar_event_id", .str calendarEventId), ("notify_at", .str reminder.notifyAt.isoformat),
    ("reminder_id", .str reminder.reminderId), ("source_event_id", .str run.sourceEventId),
    ("timezone", .str extraction.timezone.text)]

/-- The effects of an approved reminder. -/
def createEffects (principal : Principal) (state : WorkflowState)
    (extraction : ReminderExtraction platform) : Block platform BlockResult := do
  let eventRequest ← .ofExcept (CalendarEventRequest.create platform (some run.ids.calendarEventId)
    extraction.title.text (.ofInstant extraction.startsAt) extraction.timezone.text
    (run.key ++ ":calendar") (some run.sourceEventId) (some run.fingerprint))
  let event ← attempt env .createEvent (store (onCalendar (LocalCalendarTool.createEvent platform
    principal eventRequest run.request.approval env.fresh env.approvedAt)))
  let text ← .ofExcept (external
    (run.workflow.replies.reminderNotificationBody extraction.title.text))
  let body ← .ofExcept (run.guardedReply env text)
  let reminder ← attempt env .schedule (store (onScheduler (ReminderScheduler.scheduleBeforeEvent
    platform principal (run.scheduleRequest extraction event.eventId body) env.fresh)))
  let created ← .ofExcept (CloudEvent.create platform
    (run.reminderCreated env principal extraction event.eventId reminder))
  let _ ← attempt env .append (store (onEventStore (InMemoryEventStore.append principal created)))
  let requested ← .ofExcept (CloudEvent.create platform
    (run.notificationRequested env principal extraction event.eventId reminder))
  let _ ← attempt env .add (store (onOutbox (InMemoryOutbox.add principal requested
    (run.key ++ ":outbox") (some (.ofInstant reminder.notifyAt)) (some run.ids.outboxMessageId)
    env.fresh env.storedAt)))
  let completed := state.transition .completed (some ReminderWorkflowStep.completed)
    (run.completedData extraction event.eventId reminder) env.transitionedAt
  let _ ← attempt env .upsert (store (onStates (InMemoryWorkflowStateStore.upsert platform principal
    completed)))
  attempt env .commit commit
  return .created event reminder (run.workflow.noticeMinutesBefore extraction)

/-- The whole block. -/
def block (principal : Principal) : Block platform BlockResult := do
  let registration ← attempt env .register (store (onStates
    (InMemoryWorkflowStateStore.registerOrReplay principal run.initialState
      (some ReminderWorkflowStep.approvalRequired) env.registeredAt)))
  match ← .ofExcept (run.registrationResult env registration) with
  | some result =>
    attempt env .commit commit
    return .returned result
  | none =>
    match run.extraction with
    | none => run.clarify env principal registration.state
    | some extraction => run.createEffects env principal registration.state extraction

/-! ## What a block can do -/

variable {run : ApprovedRun platform} {env : Surroundings} {principal : Principal}

theorem attempt_eq_ok {op : StoreOperation} {x : Block platform α} {a : α}
    {t t' : InMemoryReminderTransaction platform} (h : attempt env op x t = (.ok a, t')) :
    x t = (.ok a, t') := by
  unfold attempt at h
  cases hf : env.faults op with
  | some name => simp [hf] at h
  | none => simpa only [hf] using h

theorem forward_attempt {op : StoreOperation} {x : Block platform α} (hx : Forward x) :
    Forward (attempt env op x) := by
  cases hf : env.faults op with
  | some name => simpa only [attempt, hf] using .raise _
  | none => simpa only [attempt, hf] using hx

theorem forward_clarify (state : WorkflowState) : Forward (run.clarify env principal state) := by
  refine .bind (.ofExcept _) fun text => .bind (.ofExcept _) fun reply => ?_
  refine .bind (forward_attempt (.store _)) fun _ => .bind (forward_attempt .commit) fun _ => ?_
  exact .bind (.ofExcept _) fun _ => .pure _

theorem forward_createEffects (state : WorkflowState) (extraction : ReminderExtraction platform) :
    Forward (run.createEffects env principal state extraction) := by
  refine .bind (.ofExcept _) fun _ => .bind (forward_attempt (.store _)) fun _ => ?_
  refine .bind (.ofExcept _) fun _ => .bind (.ofExcept _) fun _ => ?_
  refine .bind (forward_attempt (.store _)) fun _ => .bind (.ofExcept _) fun _ => ?_
  refine .bind (forward_attempt (.store _)) fun _ => .bind (.ofExcept _) fun _ => ?_
  refine .bind (forward_attempt (.store _)) fun _ => ?_
  refine .bind (forward_attempt (.store _)) fun _ => ?_
  exact .bind (forward_attempt .commit) fun _ => .pure _

theorem forward_block : Forward (run.block env principal) := by
  refine .bind (forward_attempt (.store _)) fun registration => .bind (.ofExcept _) fun replay => ?_
  cases replay with
  | some result => exact .bind (forward_attempt .commit) fun _ => .pure _
  | none =>
    cases hx : run.extraction with
    | none => simpa only [hx] using forward_clarify _
    | some extraction => simpa only [hx] using forward_createEffects _ _

/-- The registration a block starts with. -/
abbrev Registers (run : ApprovedRun platform) (env : Surroundings) (principal : Principal)
    (states : InMemoryWorkflowStateStore) (registration : WorkflowStateRegistration)
    (states' : InMemoryWorkflowStateStore) : Prop :=
  InMemoryWorkflowStateStore.registerOrReplay principal run.initialState
    (some ReminderWorkflowStep.approvalRequired) env.registeredAt states = (.ok registration, states')

/-- The calendar request of an extraction. -/
abbrev eventRequest (run : ApprovedRun platform) (extraction : ReminderExtraction platform) :
    Except PyError CalendarEventRequest :=
  CalendarEventRequest.create platform (some run.ids.calendarEventId) extraction.title.text
    (.ofInstant extraction.startsAt) extraction.timezone.text (run.key ++ ":calendar")
    (some run.sourceEventId) (some run.fingerprint)

/-- How a whole block may end: aborted with the stores as they were, or after a commit on one of its
three branches, each operation having run in its store. -/
inductive Outcome (run : ApprovedRun platform) (env : Surroundings) (principal : Principal)
    (s : ReminderStores platform) : Except PyError BlockResult → ReminderStores platform → Prop where
  | aborted (e : PyError) : Outcome run env principal s (.error e) s
  | replayed {registration : WorkflowStateRegistration} {states : InMemoryWorkflowStateStore}
      {result : ReminderWorkflowResult}
      (register : run.Registers env principal s.states registration states)
      (reply : run.registrationResult env registration = .ok (some result)) :
      Outcome run env principal s (.ok (.returned result)) { s with states := states }
  | clarified {registration : WorkflowStateRegistration} {stored : WorkflowState}
      {states states' : InMemoryWorkflowStateStore} {result : ReminderWorkflowResult}
      (register : run.Registers env principal s.states registration states)
      (fresh : run.registrationResult env registration = .ok none)
      (undated : run.extraction = none)
      (upsert : InMemoryWorkflowStateStore.upsert platform principal
        (registration.state.transition .waitingApproval (some ReminderWorkflowStep.needsClarification)
          (ReminderWorkflow.clarificationData run.clarificationReason) env.transitionedAt) states =
        (.ok stored, states')) :
      Outcome run env principal s (.ok (.returned result)) { s with states := states' }
  | created {registration : WorkflowStateRegistration} {stored : WorkflowState}
      {extraction : ReminderExtraction platform} {request : CalendarEventRequest}
      {event : CalendarEventResult} {reminder : ScheduledReminder} {body : String}
      {created appended requested : CloudEvent platform} {message : OutboxMessage platform}
      {calendar : LocalCalendarTool} {scheduler : ReminderScheduler}
      {eventStore : InMemoryEventStore platform} {outbox : InMemoryOutbox platform}
      {states states' : InMemoryWorkflowStateStore}
      (register : run.Registers env principal s.states registration states)
      (fresh : run.registrationResult env registration = .ok none)
      (dated : run.extraction = some extraction)
      (request_eq : run.eventRequest extraction = .ok request)
      (createEvent : LocalCalendarTool.createEvent platform principal request run.request.approval
        env.fresh env.approvedAt s.calendar = (.ok event, calendar))
      (schedule : ReminderScheduler.scheduleBeforeEvent platform principal
        (run.scheduleRequest extraction event.eventId body) env.fresh s.scheduler =
        (.ok reminder, scheduler))
      (created_eq : CloudEvent.create platform
        (run.reminderCreated env principal extraction event.eventId reminder) = .ok created)
      (append : InMemoryEventStore.append principal created s.eventStore = (.ok appended, eventStore))
      (requested_eq : CloudEvent.create platform
        (run.notificationRequested env principal extraction event.eventId reminder) = .ok requested)
      (add : InMemoryOutbox.add principal requested (run.key ++ ":outbox")
        (some (.ofInstant reminder.notifyAt)) (some run.ids.outboxMessageId) env.fresh env.storedAt
        s.outbox = (.ok message, outbox))
      (upsert : InMemoryWorkflowStateStore.upsert platform principal
        (registration.state.transition .completed (some ReminderWorkflowStep.completed)
          (run.completedData extraction event.eventId reminder) env.transitionedAt) states =
        (.ok stored, states')) :
      Outcome run env principal s
        (.ok (.created event reminder (run.workflow.noticeMinutesBefore extraction)))
        ⟨calendar, scheduler, eventStore, outbox, states'⟩

/-- A store operation of a block that succeeded, on the component it works on. -/
theorem attempt_store_eq_ok {σ : Type} {op : StoreOperation} {proj : ReminderStores platform → σ}
    {put : ReminderStores platform → σ → ReminderStores platform} {x : Op σ PyError α} {a : α}
    {t t' : InMemoryReminderTransaction platform}
    (h : attempt env op (store (.zoom proj put x)) t = (.ok a, t')) :
    ∃ u, x (proj t.stores) = (.ok a, u) ∧ t' = { t with stores := put t.stores u } := by
  obtain ⟨s', hs, rfl⟩ := store_cases (attempt_eq_ok h)
  obtain ⟨u, hu, rfl⟩ := Op.zoom_cases hs
  exact ⟨u, hu, rfl⟩

/-- The commit at the end of a branch. -/
theorem attempt_commit_eq_ok {t t' : InMemoryReminderTransaction platform} {u : Unit}
    (h : attempt env .commit commit t = (.ok u, t')) : t' = { t with committed := true } :=
  commit_eq_ok (attempt_eq_ok h)

theorem ofExcept_eq_ok {σ : Type} {x : Except PyError α} {s s' : σ} {a : α}
    (h : (Op.ofExcept x : Op σ PyError α) s = (.ok a, s')) : x = .ok a ∧ s' = s := by
  cases h; exact ⟨rfl, rfl⟩

theorem outcome_of_clarify {registration : WorkflowStateRegistration} {s : ReminderStores platform}
    {states : InMemoryWorkflowStateStore} {result : BlockResult}
    {t t' : InMemoryReminderTransaction platform}
    (register : run.Registers env principal s.states registration states)
    (fresh : run.registrationResult env registration = .ok none) (undated : run.extraction = none)
    (ht : t.stores = { s with states := states })
    (h : run.clarify env principal registration.state t = (.ok result, t')) :
    t'.committed = true ∧ run.Outcome env principal s (.ok result) t'.stores := by
  obtain ⟨text, t₁, h₁, k₁⟩ := Op.bind_eq_ok h
  obtain ⟨-, rfl⟩ := ofExcept_eq_ok h₁
  obtain ⟨reply, t₂, h₂, k₂⟩ := Op.bind_eq_ok k₁
  obtain ⟨-, rfl⟩ := ofExcept_eq_ok h₂
  obtain ⟨stored, t₃, h₃, k₃⟩ := Op.bind_eq_ok k₂
  obtain ⟨states', upsert, rfl⟩ := attempt_store_eq_ok h₃
  obtain ⟨_, t₄, h₄, k₄⟩ := Op.bind_eq_ok k₃
  obtain rfl := attempt_commit_eq_ok h₄
  obtain ⟨result', t₅, h₅, k₅⟩ := Op.bind_eq_ok k₄
  obtain ⟨-, rfl⟩ := ofExcept_eq_ok h₅
  cases k₅
  rw [ht] at upsert ⊢
  exact ⟨rfl, .clarified register fresh undated upsert⟩

theorem outcome_of_createEffects {registration : WorkflowStateRegistration}
    {s : ReminderStores platform} {states : InMemoryWorkflowStateStore} {result : BlockResult}
    {extraction : ReminderExtraction platform} {t t' : InMemoryReminderTransaction platform}
    (register : run.Registers env principal s.states registration states)
    (fresh : run.registrationResult env registration = .ok none)
    (dated : run.extraction = some extraction) (ht : t.stores = { s with states := states })
    (h : run.createEffects env principal registration.state extraction t = (.ok result, t')) :
    t'.committed = true ∧ run.Outcome env principal s (.ok result) t'.stores := by
  obtain ⟨request, _, h₁, k₁⟩ := Op.bind_eq_ok h
  obtain ⟨request_eq, rfl⟩ := ofExcept_eq_ok h₁
  obtain ⟨event, _, h₂, k₂⟩ := Op.bind_eq_ok k₁
  obtain ⟨calendar, createEvent, rfl⟩ := attempt_store_eq_ok h₂
  obtain ⟨text, _, h₃, k₃⟩ := Op.bind_eq_ok k₂
  obtain ⟨-, rfl⟩ := ofExcept_eq_ok h₃
  obtain ⟨body, _, h₄, k₄⟩ := Op.bind_eq_ok k₃
  obtain ⟨-, rfl⟩ := ofExcept_eq_ok h₄
  obtain ⟨reminder, _, h₅, k₅⟩ := Op.bind_eq_ok k₄
  obtain ⟨scheduler, schedule, rfl⟩ := attempt_store_eq_ok h₅
  obtain ⟨created, _, h₆, k₆⟩ := Op.bind_eq_ok k₅
  obtain ⟨created_eq, rfl⟩ := ofExcept_eq_ok h₆
  obtain ⟨appended, _, h₇, k₇⟩ := Op.bind_eq_ok k₆
  obtain ⟨eventStore, append, rfl⟩ := attempt_store_eq_ok h₇
  obtain ⟨requested, _, h₈, k₈⟩ := Op.bind_eq_ok k₇
  obtain ⟨requested_eq, rfl⟩ := ofExcept_eq_ok h₈
  obtain ⟨message, _, h₉, k₉⟩ := Op.bind_eq_ok k₈
  obtain ⟨outbox, add, rfl⟩ := attempt_store_eq_ok h₉
  obtain ⟨stored, _, h₁₀, k₁₀⟩ := Op.bind_eq_ok k₉
  obtain ⟨states', upsert, rfl⟩ := attempt_store_eq_ok h₁₀
  obtain ⟨_, _, h₁₁, k₁₁⟩ := Op.bind_eq_ok k₁₀
  obtain rfl := attempt_commit_eq_ok h₁₁
  cases k₁₁
  rw [ht] at createEvent schedule append add upsert ⊢
  exact ⟨rfl, .created register fresh dated request_eq createEvent schedule created_eq append
    requested_eq add upsert⟩

/-- Inversion of a whole block. -/
theorem outcome_of_begin {s s' : ReminderStores platform} {r : Except PyError BlockResult}
    (h : begin_ principal (run.block env principal) s = (r, s')) :
    run.Outcome env principal s r s' := by
  obtain ⟨e, rfl, rfl⟩ | ⟨result, t, -, hb, rfl, rfl⟩ := begin_cases forward_block h
  · exact .aborted e
  obtain ⟨registration, _, h₁, hk⟩ := Op.bind_eq_ok hb
  obtain ⟨states, register, rfl⟩ := attempt_store_eq_ok h₁
  change run.Registers env principal s.states registration states at register
  obtain ⟨replay, _, h₂, hb⟩ := Op.bind_eq_ok hk
  obtain ⟨reply, rfl⟩ := ofExcept_eq_ok h₂
  cases replay with
  | some result' =>
    obtain ⟨_, _, h₃, hret⟩ := Op.bind_eq_ok hb
    obtain rfl := attempt_commit_eq_ok h₃
    cases hret
    exact .replayed register reply
  | none =>
    simp only at hb
    cases hx : run.extraction with
    | none =>
      simp only [hx] at hb
      obtain ⟨hc, ho⟩ := outcome_of_clarify register reply hx rfl hb
      simpa [hc] using ho
    | some extraction =>
      simp only [hx] at hb
      obtain ⟨hc, ho⟩ := outcome_of_createEffects register reply hx rfl hb
      simpa [hc] using ho

end ApprovedRun

end PersonalAssistant
