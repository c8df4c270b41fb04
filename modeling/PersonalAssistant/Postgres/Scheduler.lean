import PersonalAssistant.Postgres.Outbox
import PersonalAssistant.Stores.Scheduler

/-!
# The PostgreSQL reminder scheduler

`PostgresReminderScheduler` over a table of rows with columns and a JSON payload, the unique keys and
`CHECK`s of the migrations, and the trigger that keeps the legacy `sent` flag. The trigger runs before
every insert and update, and writes status, flag and publication time into the payload once more.

`schedule_before_event` subtracts the lead time on the wall clock of the caller's zone, so the offset of
that zone at the earlier reading is part of a request here.
-/
namespace PersonalAssistant

open Lib InMemoryOutbox

variable {platform : Platform}

/-- A row of `assistant_scheduled_reminders`. -/
structure ReminderRow where
  tenantId : String
  idempotencyKey : String
  reminderId : String
  calendarEventId : String
  notifyAt : Instant
  channel : String
  recipient : String
  sent : Bool
  deliveryStatus : DeliveryStatus
  attempts : Nat
  nextAttemptAt : Option Instant
  sendingAt : Option Instant
  publishedAt : Option Instant
  lastErrorCategory : Option DeliveryErrorCategory
  lastErrorCode : Option DeliveryErrorCode
  lastErrorProviderCode : Option (Fin 10000)
  lastErrorAt : Option Instant
  payload : ScheduledReminder
deriving DecidableEq

namespace ReminderRow

/-- `assistant_scheduled_error_shape_check`. -/
def errorShapeCheck (r : ReminderRow) : Bool :=
  (r.lastErrorCategory.isNone && r.lastErrorCode.isNone && r.lastErrorProviderCode.isNone &&
      r.lastErrorAt.isNone) ||
    (r.lastErrorCategory.isSome && r.lastErrorCode.isSome && r.lastErrorAt.isSome)

/-- `assistant_scheduled_legacy_sent_check`. -/
def legacySentCheck (r : ReminderRow) : Bool := r.sent = decide (r.deliveryStatus ≠ .pending)

/-- `assistant_scheduled_state_metadata_check` of migration 0004. -/
def stateMetadataCheck (r : ReminderRow) : Bool :=
  (r.deliveryStatus = .pending && r.sendingAt.isNone && r.publishedAt.isNone) ||
  (r.deliveryStatus = .claimed && r.sendingAt.isNone && r.publishedAt.isNone) ||
  (r.deliveryStatus = .sending && r.attempts > 0 && r.sendingAt.isSome && r.publishedAt.isNone) ||
  (r.deliveryStatus = .published && r.publishedAt.isSome) ||
  (r.deliveryStatus = .failed && r.publishedAt.isNone && r.lastErrorCategory.isSome &&
      r.lastErrorCode.isSome && r.lastErrorAt.isSome &&
      ((r.attempts = 0 && r.sendingAt.isNone) || (r.attempts > 0 && r.sendingAt.isSome))) ||
  (r.deliveryStatus = .uncertain && r.attempts > 0 && r.sendingAt.isSome && r.publishedAt.isNone &&
      r.lastErrorCategory.isSome && r.lastErrorCode.isSome && r.lastErrorAt.isSome)

def check (r : ReminderRow) : Bool := r.errorShapeCheck && r.legacySentCheck && r.stateMetadataCheck

/-- The error columns of an assignment list. -/
def withError (error : Option DeliveryError) (r : ReminderRow) : ReminderRow :=
  { r with
    lastErrorCategory := error.map DeliveryError.category
    lastErrorCode := error.map DeliveryError.code
    lastErrorProviderCode := error.bind DeliveryError.providerCode
    lastErrorAt := error.map DeliveryError.occurredAt }

/-- The row an `INSERT` of a validated job names; the other columns have their defaults. -/
def inserted (job : ScheduledReminder) : ReminderRow where
  tenantId := job.tenantId
  idempotencyKey := job.idempotencyKey
  reminderId := job.reminderId
  calendarEventId := job.calendarEventId
  notifyAt := job.notifyAt
  channel := job.channel
  recipient := job.recipient
  sent := job.sent
  deliveryStatus := .pending
  attempts := 0
  nextAttemptAt := none
  sendingAt := none
  publishedAt := none
  lastErrorCategory := none
  lastErrorCode := none
  lastErrorProviderCode := none
  lastErrorAt := none
  payload := job

/-- The columns that `sync_scheduled_reminder_legacy_sent` assigns, with `old` absent on an insert. -/
def syncColumns (old : Option ReminderRow) (new : ReminderRow) (now : Instant) : ReminderRow :=
  let published : ReminderRow :=
    { new with deliveryStatus := .published, publishedAt := some (new.publishedAt.getD now) }
  let flagged : ReminderRow := { new with sent := new.deliveryStatus ≠ .pending }
  match old with
  | none =>
    if new.deliveryStatus ≠ .pending then { new with sent := true }
    else if new.sent then published
    else flagged
  | some old =>
    if new.deliveryStatus ≠ old.deliveryStatus then flagged
    else if new.sent && !old.sent then published
    else flagged

/-- `sync_scheduled_reminder_legacy_sent`: the columns, then the payload. -/
def syncLegacySent (old : Option ReminderRow) (new : ReminderRow) (now : Instant) : ReminderRow :=
  let row := syncColumns old new now
  { row with
    payload := { row.payload with
      deliveryStatus := row.deliveryStatus
      sent := row.sent
      publishedAt := row.publishedAt } }

/-- Two rows violate one of the unique keys. -/
def collides (a b : ReminderRow) : Bool :=
  a.tenantId = b.tenantId && (a.idempotencyKey = b.idempotencyKey || a.reminderId = b.reminderId)

end ReminderRow

/-- The texts of a job in columns and document. -/
def ScheduledReminder.texts (job : ScheduledReminder) : List String :=
  [job.reminderId, job.tenantId, job.calendarEventId, job.timezone, job.sourceEventId,
    job.payloadFingerprint, job.channel, job.recipient, job.body, job.idempotencyKey]

/-- The document `_upgrade_legacy_scheduled_reminder` hashes for a job without a fingerprint. -/
def ScheduledReminder.legacyDocument (job : ScheduledReminder) (timezone : String) : Json :=
  .obj [("body", .str job.body), ("calendar_event_id", .str job.calendarEventId),
    ("channel", .str job.channel), ("notify_at", .str job.notifyAt.json),
    ("recipient", .str job.recipient),
    ("schema", .str "personal-assistant.legacy-scheduled-reminder"), ("timezone", .str timezone)]

/-- `_upgrade_legacy_scheduled_reminder`. -/
def ScheduledReminder.upgradeLegacy (platform : Platform) (job : ScheduledReminder) :
    ScheduledReminder :=
  let timezone := if job.timezone = "" then "UTC" else job.timezone
  { job with
    sourceEventId :=
      if job.sourceEventId = "" then "legacy:" ++ job.idempotencyKey else job.sourceEventId
    timezone := timezone
    payloadFingerprint :=
      if job.payloadFingerprint = "" then (platform.fingerprint (job.legacyDocument timezone)).text
      else job.payloadFingerprint }

abbrev ReminderTable := List ReminderRow

namespace PostgresReminderScheduler

open ReminderScheduler PostgresOutbox

abbrev Method (α : Type) := Op ReminderTable PyError α

/-- A payload as the methods return it. -/
def readPayload (platform : Platform) (r : ReminderRow) : Except PyError ScheduledReminder :=
  (r.payload.upgradeLegacy platform).modelValidate platform

/-- `starts_at - timedelta(minutes=minutes_before)` on the wall clock, and its instant. `offsetAt` is the
offset of the zone of `starts_at` at a wall clock reading. -/
def notifyAtOf (request : ScheduleRequest) (offsetAt : Instant → Int) : Except PyError Instant :=
  match request.startsAt.offset with
  | none => .error (.valueError "starts_at must be timezone-aware")
  | some _ => do
    let wall ← request.startsAt.wall.addSeconds (-(request.minutesBefore * 60))
    (⟨wall, some (offsetAt wall)⟩ : DateTime).canonicalUtc "notify_at"

def scheduleBeforeEvent (platform : Platform) (principal : Principal) (request : ScheduleRequest)
    (offsetAt : Instant → Int) (fresh : Uuid) (now : Instant) : Method ScheduledReminder := do
  .ofExcept (requireTrustedPrincipal principal)
  let notifyAt ← .ofExcept (notifyAtOf request offsetAt)
  let job ← .ofExcept ((newJob principal request notifyAt fresh).modelValidate platform)
  .ofExcept (bindTexts job.texts)
  let row := ReminderRow.syncLegacySent none (.inserted job) now
  .ofExcept (require row.check (.integrityError "assistant_scheduled_reminders"))
  let table ← .get
  if !table.any row.collides then
    let stored ← .ofExcept (readPayload platform row)
    .modify fun t => t ++ [row]
    pure stored
  else
    match table.find? fun r =>
        r.tenantId = principal.tenantId && r.idempotencyKey = request.idempotencyKey with
    | none =>
      if table.any fun r => r.tenantId = principal.tenantId && r.reminderId = job.reminderId then
        .raise (conflict "scheduled reminder id conflict" principal)
      else .raise (.assistant .internalError "reminder schedule failed" (some principal.tenantId))
    | some existing =>
      let stored ← .ofExcept (readPayload platform existing)
      if !sameRequest stored job then
        .raise (conflict "reminder scheduler idempotency conflict" principal)
      else pure stored

/-- The `WHERE` of `due`. -/
def selectedForDue (principal : Principal) (now : Int) (r : ReminderRow) : Bool :=
  r.tenantId = principal.tenantId && r.deliveryStatus = .pending && r.notifyAt.micros ≤ now &&
    r.nextAttemptAt.all fun t => t.micros ≤ now

/-- `ORDER BY notify_at, reminder_id`, in the C collation. -/
def orderedBefore (a b : ReminderRow) : Prop :=
  a.notifyAt < b.notifyAt ∨ (a.notifyAt = b.notifyAt ∧ a.reminderId ≤ b.reminderId)

instance : DecidableRel orderedBefore := fun _ _ => inferInstanceAs (Decidable (_ ∨ _))

/-- `SELECT payload … WHERE … ORDER BY notify_at, reminder_id`. -/
def selectPayloads (platform : Platform) (selected : ReminderRow → Bool) :
    Method (List ScheduledReminder) := do
  let table ← .get
  .ofExcept (((table.filter selected).insertionSort orderedBefore).mapM (readPayload platform))

def due (platform : Platform) (principal : Principal) (now : DateTime) :
    Method (List ScheduledReminder) := do
  .ofExcept (requireTrustedPrincipal principal)
  let now ← .ofExcept (now.awareMicros "now")
  .ofExcept (bindTexts [principal.tenantId])
  selectPayloads platform (selectedForDue principal now)

/-- `UPDATE` of the row of a reminder, through the trigger and the constraints. -/
def updateRow (found : ReminderRow → Bool) (row : ReminderRow)
    (assign : ReminderRow → ReminderRow) (now : Instant) : Method Unit := do
  let new := ReminderRow.syncLegacySent (some row) (assign row) now
  .ofExcept (require (new.attempts ≤ maxInteger) (.external "NumericValueOutOfRange"))
  .ofExcept (require new.check (.integrityError "assistant_scheduled_reminders"))
  .modify fun t => t.map fun r =>
    if found r then ReminderRow.syncLegacySent (some r) (assign r) now else r

/-- The row of a reminder of the principal's tenant. -/
def isReminder (principal : Principal) (reminderId : String) (r : ReminderRow) : Bool :=
  r.tenantId = principal.tenantId && r.reminderId = reminderId

/-- The assignments of `mirror_delivery`. -/
def assignMirror (message : OutboxMessage platform) (updated : ScheduledReminder) (r : ReminderRow) :
    ReminderRow :=
  { r with
    deliveryStatus := message.dispatchStatus
    attempts := message.attempts
    nextAttemptAt := message.nextAttemptAt
    sendingAt := message.sendingAt
    publishedAt := message.publishedAt
    sent := updated.sent
    payload := updated }.withError message.lastError

def mirrorDelivery (principal : Principal) (reminderId : String) (message : OutboxMessage platform)
    (now : Instant) : Method ScheduledReminder := do
  .ofExcept (requireTrustedPrincipal principal)
  .ofExcept (require
    (message.tenantId = principal.tenantId && message.event.subject = some reminderId)
    (.assistant .permissionDenied "delivery mirror identity mismatch" (some principal.tenantId)))
  .ofExcept (bindTexts [principal.tenantId, reminderId])
  let table ← .get
  match table.find? (isReminder principal reminderId) with
  | none => .raise (reminderNotFound principal)
  | some row =>
    let job ← .ofExcept (readPayload platform row)
    let updated ← .ofExcept ((job.mirrored message).modelValidate platform)
    updateRow (isReminder principal reminderId) row (assignMirror message updated) now
    pure updated

/-- The assignments of `mark_sent`. -/
def assignSent (publishedAt : Instant) (job : ScheduledReminder) (r : ReminderRow) : ReminderRow :=
  { r with
    sent := true
    deliveryStatus := .published
    publishedAt := some publishedAt
    payload := job }.withError none

def markSent (platform : Platform) (principal : Principal) (reminderId : String) (clock now : Instant) :
    Method ScheduledReminder := do
  .ofExcept (requireTrustedPrincipal principal)
  .ofExcept (bindTexts [principal.tenantId, reminderId])
  let table ← .get
  match table.find? (isReminder principal reminderId) with
  | none => .raise (reminderNotFound principal)
  | some row =>
    let stored ← .ofExcept (readPayload platform row)
    let job ← .ofExcept (({ stored with
      deliveryStatus := .published
      publishedAt := some clock
      lastError := none
      sent := true } : ScheduledReminder).modelValidate platform)
    updateRow (fun r => r.tenantId = principal.tenantId && r.idempotencyKey = row.idempotencyKey) row
      (assignSent clock job) now
    pure job

def listForTenant (platform : Platform) (principal : Principal) : Method (List ScheduledReminder) := do
  .ofExcept (requireTrustedPrincipal principal)
  .ofExcept (bindTexts [principal.tenantId])
  selectPayloads platform fun r => r.tenantId = principal.tenantId

end PostgresReminderScheduler

end PersonalAssistant
