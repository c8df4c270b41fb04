import PersonalAssistant.Outbox.InMemory

/-!
# The reminder scheduler

`ReminderScheduler` stores one job per idempotency key and mirrors the delivery state of outbox
messages into it. `ScheduledReminder.modelValidate` recomputes the legacy `sent` flag from the
delivery status, so a mirrored job is `sent` exactly when it is not pending.
-/
namespace PersonalAssistant

open Lib InMemoryOutbox

variable {platform : Platform}

structure ScheduledReminder where
  reminderId : String
  tenantId : String
  calendarEventId : String
  notifyAt : Instant
  timezone : String
  sourceEventId : String
  payloadFingerprint : String
  channel : String
  recipient : String
  body : String
  idempotencyKey : String
  deliveryStatus : DeliveryStatus
  attempts : Nat
  nextAttemptAt : Option Instant
  sendingAt : Option Instant
  publishedAt : Option Instant
  lastError : Option DeliveryError
  sent : Bool
deriving DecidableEq

namespace ScheduledReminder

/-- `ScheduledReminder.model_validate` of a dump: `upgrade_legacy_sent`, then the field checks. -/
def modelValidate (platform : Platform) (job : ScheduledReminder) :
    Except PyError ScheduledReminder := do
  requireIanaTimezone platform job.timezone
  requireNonempty job.sourceEventId
  requireFingerprint job.payloadFingerprint
  return { job with sent := job.deliveryStatus ≠ .pending }

/-- The field checks a stored job has passed. -/
structure Valid (platform : Platform) (job : ScheduledReminder) : Prop where
  timezone : requireIanaTimezone platform job.timezone = .ok ()
  sourceEventId : requireNonempty job.sourceEventId = .ok ()
  payloadFingerprint : requireFingerprint job.payloadFingerprint = .ok ()

theorem modelValidate_eq_ok {job job' : ScheduledReminder}
    (h : job.modelValidate platform = .ok job') :
    job.Valid platform ∧ job' = { job with sent := job.deliveryStatus ≠ .pending } := by
  unfold modelValidate at h
  obtain ⟨_, h₁, h⟩ := except_bind_eq_ok.mp h
  obtain ⟨_, h₂, h⟩ := except_bind_eq_ok.mp h
  obtain ⟨_, h₃, h⟩ := except_bind_eq_ok.mp h
  cases h
  exact ⟨⟨h₁, h₂, h₃⟩, rfl⟩

theorem Valid.modelValidate {job : ScheduledReminder} (h : job.Valid platform) :
    job.modelValidate platform = .ok { job with sent := job.deliveryStatus ≠ .pending } := by
  unfold ScheduledReminder.modelValidate
  rw [h.timezone, h.sourceEventId, h.payloadFingerprint]
  rfl

/-- The delivery fields copied from an outbox message. -/
def mirrored (job : ScheduledReminder) (m : OutboxMessage platform) : ScheduledReminder :=
  { job with
    deliveryStatus := m.dispatchStatus
    attempts := m.attempts
    nextAttemptAt := m.nextAttemptAt
    sendingAt := m.sendingAt
    publishedAt := m.publishedAt
    lastError := m.lastError
    sent := m.dispatchStatus ≠ .pending }

end ScheduledReminder

structure ReminderScheduler where
  jobsByKey : Dict Key ScheduledReminder
  keyByReminderId : Dict Key String

namespace ReminderScheduler

def empty : ReminderScheduler := ⟨.empty, .empty⟩

/-- The arguments of `schedule_before_event`. -/
structure ScheduleRequest where
  calendarEventId : String
  startsAt : DateTime
  channel : String
  recipient : String
  body : String
  timezone : String
  sourceEventId : String
  payloadFingerprint : String
  minutesBefore : Int
  idempotencyKey : String
  reminderId : Option String

/-- `notify_at` of a request. -/
def notifyAtOf (request : ScheduleRequest) : Except PyError Instant := do
  let startsAt ← request.startsAt.canonicalUtc "starts_at"
  startsAt.addSeconds (-(request.minutesBefore * 60))

def newJob (principal : Principal) (request : ScheduleRequest) (notifyAt : Instant) (fresh : Uuid) :
    ScheduledReminder where
  reminderId := request.reminderId.getD ("rem_" ++ fresh.hex)
  tenantId := principal.tenantId
  calendarEventId := request.calendarEventId
  notifyAt := notifyAt
  timezone := request.timezone
  sourceEventId := request.sourceEventId
  payloadFingerprint := request.payloadFingerprint
  channel := request.channel
  recipient := request.recipient
  body := request.body
  idempotencyKey := request.idempotencyKey
  deliveryStatus := .pending
  attempts := 0
  nextAttemptAt := none
  sendingAt := none
  publishedAt := none
  lastError := none
  sent := false

/-- The fields a replayed schedule request is compared on. -/
def sameRequest (a b : ScheduledReminder) : Bool :=
  a.calendarEventId = b.calendarEventId && a.notifyAt = b.notifyAt && a.timezone = b.timezone &&
    a.sourceEventId = b.sourceEventId && a.payloadFingerprint = b.payloadFingerprint &&
    a.channel = b.channel && a.recipient = b.recipient && a.body = b.body

def scheduleBeforeEvent (platform : Platform) (principal : Principal) (request : ScheduleRequest)
    (fresh : Uuid) : Op ReminderScheduler PyError ScheduledReminder := do
  .ofExcept (requireTrustedPrincipal principal)
  let notifyAt ← .ofExcept (notifyAtOf request)
  let key := (principal.tenantId, request.idempotencyKey)
  let job ← .ofExcept ((newJob principal request notifyAt fresh).modelValidate platform)
  let self ← .get
  match self.jobsByKey.get? key with
  | some existing =>
    if !sameRequest existing job then
      .raise (conflict "reminder scheduler idempotency conflict" principal)
    else pure existing
  | none =>
    let reminderKey := (principal.tenantId, job.reminderId)
    if takenByOther self.keyByReminderId reminderKey request.idempotencyKey then
      .raise (conflict "scheduled reminder id conflict" principal)
    else
      .modify fun s =>
        { jobsByKey := s.jobsByKey.set key job
          keyByReminderId := s.keyByReminderId.set reminderKey request.idempotencyKey }
      pure job

/-- The first job of the tenant with this reminder identifier, in insertion order. -/
def find? (s : ReminderScheduler) (principal : Principal) (reminderId : String) :
    Option (Key × ScheduledReminder) :=
  s.jobsByKey.entries.find? fun e => e.1.1 = principal.tenantId && e.2.reminderId = reminderId

def setJob (s : ReminderScheduler) (key : Key) (job : ScheduledReminder) : ReminderScheduler :=
  { s with jobsByKey := s.jobsByKey.set key job }

@[simp] theorem jobsByKey_setJob (s : ReminderScheduler) (key : Key) (job : ScheduledReminder) :
    (s.setJob key job).jobsByKey = s.jobsByKey.set key job := rfl

def reminderNotFound (principal : Principal) : PyError :=
  .assistant .notFound "scheduled reminder not found" (some principal.tenantId)

def mirrorDelivery (principal : Principal) (reminderId : String) (message : OutboxMessage platform) :
    Op ReminderScheduler PyError ScheduledReminder := do
  .ofExcept (requireTrustedPrincipal principal)
  .ofExcept (require
    (message.tenantId = principal.tenantId && message.event.subject = some reminderId)
    (.assistant .permissionDenied "delivery mirror identity mismatch" (some principal.tenantId)))
  let self ← .get
  match self.find? principal reminderId with
  | none => .raise (reminderNotFound principal)
  | some (key, job) =>
    let updated ← .ofExcept ((job.mirrored message).modelValidate platform)
    .modify fun s => s.setJob key updated
    pure updated

def markSent (principal : Principal) (reminderId : String) (clock : Instant) :
    Op ReminderScheduler PyError ScheduledReminder := do
  .ofExcept (requireTrustedPrincipal principal)
  let self ← .get
  match self.find? principal reminderId with
  | none => .raise (reminderNotFound principal)
  | some (key, job) =>
    let updated :=
      { job with deliveryStatus := .published, sent := true, publishedAt := some clock }
    .modify fun s => s.setJob key updated
    pure updated

/-- The condition of `due`, at an aware timestamp. -/
def isDue (principal : Principal) (now : Int) (job : ScheduledReminder) : Bool :=
  job.tenantId = principal.tenantId && job.deliveryStatus = .pending && job.notifyAt.micros ≤ now &&
    job.nextAttemptAt.all fun t => t.micros ≤ now

/-- The order of `due`: by `(notify_at, reminder_id)`. -/
def notifiedBefore (a b : ScheduledReminder) : Prop :=
  a.notifyAt < b.notifyAt ∨ (a.notifyAt = b.notifyAt ∧ a.reminderId ≤ b.reminderId)

instance : DecidableRel notifiedBefore := fun _ _ => inferInstanceAs (Decidable (_ ∨ _))

def due (principal : Principal) (now : DateTime) :
    Op ReminderScheduler PyError (List ScheduledReminder) := do
  .ofExcept (requireTrustedPrincipal principal)
  let now ← .ofExcept (now.awareMicros "now")
  let self ← .get
  return (self.jobsByKey.values.filter (isDue principal now)).insertionSort notifiedBefore

def listForTenant (principal : Principal) : Op ReminderScheduler PyError (List ScheduledReminder) := do
  .ofExcept (requireTrustedPrincipal principal)
  let self ← .get
  return (self.jobsByKey.entries.filter fun e => e.1.1 = principal.tenantId).map Prod.snd

/-! ## What the methods can do -/

variable {s s' : ReminderScheduler}

theorem find?_eq_some {principal : Principal} {reminderId : String} {k : Key}
    {job : ScheduledReminder} (h : s.find? principal reminderId = some (k, job)) :
    s.jobsByKey.get? k = some job ∧ k.1 = principal.tenantId ∧ job.reminderId = reminderId := by
  have hm := List.mem_of_find?_eq_some h
  have hp := List.find?_some h
  simp only [Bool.and_eq_true, decide_eq_true_eq] at hp
  exact ⟨Dict.mem_entries.mp hm, hp⟩

/-- `schedule_before_event` raised without writing, returned the stored job, or stored a new one. -/
theorem scheduleBeforeEvent_cases {principal : Principal} {request : ScheduleRequest} {fresh : Uuid}
    {r : Except PyError ScheduledReminder}
    (h : scheduleBeforeEvent platform principal request fresh s = (r, s')) :
    (∃ e, r = .error e ∧ s' = s) ∨
      ∃ notifyAt job, principal.trusted = true ∧ notifyAtOf request = .ok notifyAt ∧
        (newJob principal request notifyAt fresh).modelValidate platform = .ok job ∧
        ((∃ stored, s.jobsByKey.get? (principal.tenantId, request.idempotencyKey) = some stored ∧
            sameRequest stored job = true ∧ r = .ok stored ∧ s' = s) ∨
          (s.jobsByKey.get? (principal.tenantId, request.idempotencyKey) = none ∧
            takenByOther s.keyByReminderId (principal.tenantId, job.reminderId)
              request.idempotencyKey = false ∧
            r = .ok job ∧
            s' = {
              jobsByKey := s.jobsByKey.set (principal.tenantId, request.idempotencyKey) job
              keyByReminderId := s.keyByReminderId.set (principal.tenantId, job.reminderId)
                request.idempotencyKey })) := by
  unfold scheduleBeforeEvent at h
  rcases Op.ofExcept_bind_cases h with ⟨e, -, ho⟩ | ⟨_, htr, h⟩
  · cases ho; exact .inl ⟨e, rfl, rfl⟩
  rcases Op.ofExcept_bind_cases h with ⟨e, -, ho⟩ | ⟨notifyAt, hn, h⟩
  · cases ho; exact .inl ⟨e, rfl, rfl⟩
  rcases Op.ofExcept_bind_cases h with ⟨e, -, ho⟩ | ⟨job, hj, h⟩
  · cases ho; exact .inl ⟨e, rfl, rfl⟩
  have htr := requireTrustedPrincipal_eq_ok.mp htr
  rw [Op.get_bind] at h
  cases hk : s.jobsByKey.get? (principal.tenantId, request.idempotencyKey) with
  | some stored =>
    simp only [hk] at h
    split_ifs at h with hsame
    · cases h; exact .inl ⟨_, rfl, rfl⟩
    · cases h
      exact .inr ⟨notifyAt, job, htr, hn, hj, .inl ⟨stored, rfl, by simpa using hsame, rfl, rfl⟩⟩
  | none =>
    simp only [hk] at h
    split_ifs at h with hid
    · cases h; exact .inl ⟨_, rfl, rfl⟩
    · rw [Op.modify_bind] at h
      cases h
      exact .inr ⟨notifyAt, job, htr, hn, hj, .inr ⟨rfl, by simpa using hid, rfl, rfl⟩⟩

/-- `mirror_delivery` raised without writing, or stored the mirrored job of its reminder. -/
theorem mirrorDelivery_cases {principal : Principal} {reminderId : String}
    {message : OutboxMessage platform} {r : Except PyError ScheduledReminder}
    (h : mirrorDelivery principal reminderId message s = (r, s')) :
    (∃ e, r = .error e ∧ s' = s) ∨
      ∃ k job, principal.trusted = true ∧ message.tenantId = principal.tenantId ∧
        message.event.subject = some reminderId ∧ s.find? principal reminderId = some (k, job) ∧
        job.Valid platform ∧ r = .ok (job.mirrored message) ∧
        s' = s.setJob k (job.mirrored message) := by
  unfold mirrorDelivery at h
  rcases Op.ofExcept_bind_cases h with ⟨e, -, ho⟩ | ⟨_, htr, h⟩
  · cases ho; exact .inl ⟨e, rfl, rfl⟩
  rcases Op.ofExcept_bind_cases h with ⟨e, -, ho⟩ | ⟨_, hid, h⟩
  · cases ho; exact .inl ⟨e, rfl, rfl⟩
  have hid : message.tenantId = principal.tenantId ∧ message.event.subject = some reminderId := by
    simpa [require] using hid
  rw [Op.get_bind] at h
  rcases hf : s.find? principal reminderId with _ | ⟨k, job⟩
  · simp only [hf] at h
    cases h; exact .inl ⟨_, rfl, rfl⟩
  · simp only [hf] at h
    rcases Op.ofExcept_bind_cases h with ⟨e, -, ho⟩ | ⟨updated, hu, h⟩
    · cases ho; exact .inl ⟨e, rfl, rfl⟩
    obtain ⟨hv, rfl⟩ := ScheduledReminder.modelValidate_eq_ok hu
    rw [Op.modify_bind] at h
    cases h
    exact .inr ⟨k, job, requireTrustedPrincipal_eq_ok.mp htr, hid.1, hid.2, rfl,
      ⟨hv.timezone, hv.sourceEventId, hv.payloadFingerprint⟩, rfl, rfl⟩

/-- `mark_sent` raised without writing, or stored its job as published. -/
theorem markSent_cases {principal : Principal} {reminderId : String} {clock : Instant}
    {r : Except PyError ScheduledReminder} (h : markSent principal reminderId clock s = (r, s')) :
    (∃ e, r = .error e ∧ s' = s) ∨
      ∃ k job, s.find? principal reminderId = some (k, job) ∧
        s' = s.setJob k
          { job with deliveryStatus := .published, sent := true, publishedAt := some clock } := by
  unfold markSent at h
  rcases Op.ofExcept_bind_cases h with ⟨e, -, ho⟩ | ⟨_, -, h⟩
  · cases ho; exact .inl ⟨e, rfl, rfl⟩
  rw [Op.get_bind] at h
  rcases hf : s.find? principal reminderId with _ | ⟨k, job⟩
  · simp only [hf] at h
    cases h; exact .inl ⟨_, rfl, rfl⟩
  · simp only [hf] at h
    rw [Op.modify_bind] at h
    cases h
    exact .inr ⟨k, job, rfl, rfl⟩

end ReminderScheduler

end PersonalAssistant
