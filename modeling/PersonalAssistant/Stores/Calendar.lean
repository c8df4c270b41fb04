import PersonalAssistant.Outbox.InMemory

/-!
# The local calendar and the event store

`LocalCalendarTool` writes one event per idempotency key after checking the approval;
`InMemoryEventStore` appends events by identifier. Both return the stored value on an identical
replay and refuse a changed one.
-/
namespace PersonalAssistant

open Lib InMemoryOutbox

variable {platform : Platform}

/-- A validated request: texts nonempty, the zone known, timestamps in UTC. -/
structure CalendarEventRequest where
  eventId : Option String
  title : String
  startsAt : Instant
  endsAt : Option Instant
  timezone : String
  idempotencyKey : String
  sourceEventId : Option String
  payloadFingerprint : Option String
deriving DecidableEq

structure CalendarEventResult where
  eventId : String
  title : String
  startsAt : Instant
  timezone : String
  idempotencyKey : String
  sourceEventId : Option String
  payloadFingerprint : Option String
  reused : Bool
deriving DecidableEq

namespace CalendarEventRequest

/-- `CalendarEventRequest(...)` without an end. -/
def create (platform : Platform) (eventId : Option String) (title : String) (startsAt : DateTime)
    (timezone idempotencyKey : String) (sourceEventId payloadFingerprint : Option String) :
    Except PyError CalendarEventRequest := do
  optionally requireNonempty eventId
  requireNonempty title
  let startsAt ← match startsAt.offset with
    | none => .error (.validationError "calendar datetimes must be timezone-aware")
    | some offset => Instant.ofMicros (startsAt.utcMicros offset)
  require (platform.isZone timezone) (.validationError "timezone must be a valid IANA timezone")
  requireNonempty idempotencyKey
  optionally requireNonempty sourceEventId
  optionally requireFingerprint payloadFingerprint
  return { eventId, title, startsAt, endsAt := none, timezone, idempotencyKey, sourceEventId,
           payloadFingerprint }

theorem create_eq_ok {eventId : Option String} {title timezone idempotencyKey : String}
    {startsAt : Instant} {sourceEventId payloadFingerprint : Option String} {r : CalendarEventRequest}
    (h : create platform eventId title (.ofInstant startsAt) timezone idempotencyKey sourceEventId
      payloadFingerprint = .ok r) :
    r = { eventId, title, startsAt, endsAt := none, timezone, idempotencyKey, sourceEventId,
          payloadFingerprint } := by
  have hmicros : Instant.ofMicros ((DateTime.ofInstant startsAt).utcMicros 0) = .ok startsAt := by
    have hmax := startsAt.le_max
    simp [DateTime.ofInstant, DateTime.utcMicros, Instant.ofMicros, hmax]
  unfold create at h
  obtain ⟨_, -, h⟩ := except_bind_eq_ok.mp h
  obtain ⟨_, -, h⟩ := except_bind_eq_ok.mp h
  obtain ⟨t, ht, h⟩ := except_bind_eq_ok.mp h
  obtain ⟨_, -, h⟩ := except_bind_eq_ok.mp h
  obtain ⟨_, -, h⟩ := except_bind_eq_ok.mp h
  obtain ⟨_, -, h⟩ := except_bind_eq_ok.mp h
  obtain ⟨_, -, hret⟩ := except_bind_eq_ok.mp h
  cases hmicros.symm.trans ht
  cases hret; rfl

/-- `request.model_dump(mode="json", exclude={"event_id"})`. -/
def json (r : CalendarEventRequest) : Json :=
  .obj [("ends_at", CloudEvent.textJson (r.endsAt.map Instant.json)),
    ("idempotency_key", .str r.idempotencyKey),
    ("payload_fingerprint", CloudEvent.textJson r.payloadFingerprint),
    ("source_event_id", CloudEvent.textJson r.sourceEventId), ("starts_at", .str r.startsAt.json),
    ("timezone", .str r.timezone), ("title", .str r.title)]

/-- The result stored for a new request. -/
def result (r : CalendarEventRequest) (eventId : String) : CalendarEventResult where
  eventId := eventId
  title := r.title
  startsAt := r.startsAt
  timezone := r.timezone
  idempotencyKey := r.idempotencyKey
  sourceEventId := r.sourceEventId
  payloadFingerprint := r.payloadFingerprint
  reused := false

end CalendarEventRequest

structure LocalCalendarTool where
  eventsByKey : Dict Key CalendarEventResult
  keyByEventId : Dict Key String
  fingerprints : Dict Key Digest

namespace LocalCalendarTool

def empty : LocalCalendarTool := ⟨.empty, .empty, .empty⟩

/-- `request.event_id or f"cal_{uuid4().hex}"`. -/
def eventIdOf (request : CalendarEventRequest) (fresh : Uuid) : String :=
  match request.eventId with
  | none => "cal_" ++ fresh.hex
  | some id => if id = "" then "cal_" ++ fresh.hex else id

def createEvent (platform : Platform) (principal : Principal) (request : CalendarEventRequest)
    (approval : Option ApprovalGrant) (fresh : Uuid) (now : Instant) :
    Op LocalCalendarTool PyError CalendarEventResult := do
  .ofExcept (requireApproval principal .P3 approval "calendar.create_event" request.idempotencyKey
    now)
  let key := (principal.tenantId, request.idempotencyKey)
  let requestFingerprint := platform.fingerprint request.json
  let self ← .get
  match self.eventsByKey.get? key with
  | some existing =>
    match self.fingerprints.get? key with
    | none => .raise (.keyError request.idempotencyKey)
    | some stored =>
      if stored ≠ requestFingerprint then .raise (conflict "calendar idempotency conflict" principal)
      else pure { existing with reused := true }
  | none =>
    let eventId := eventIdOf request fresh
    let eventKey := (principal.tenantId, eventId)
    if takenByOther self.keyByEventId eventKey request.idempotencyKey then
      .raise (conflict "calendar event id conflict" principal)
    else
      let result := request.result eventId
      .modify fun s =>
        { eventsByKey := s.eventsByKey.set key result
          keyByEventId := s.keyByEventId.set eventKey request.idempotencyKey
          fingerprints := s.fingerprints.set key requestFingerprint }
      pure result

def listEvents (principal : Principal) : Op LocalCalendarTool PyError (List CalendarEventResult) := do
  .ofExcept (requireTrustedPrincipal principal)
  let self ← .get
  return (self.eventsByKey.entries.filter fun e => e.1.1 = principal.tenantId).map Prod.snd

/-- `create_event` raised without writing, returned the stored event, or stored a new one. -/
theorem createEvent_cases {principal : Principal} {request : CalendarEventRequest}
    {approval : Option ApprovalGrant} {fresh : Uuid} {now : Instant} {s s' : LocalCalendarTool}
    {r : Except PyError CalendarEventResult}
    (h : createEvent platform principal request approval fresh now s = (r, s')) :
    (∃ e, r = .error e ∧ s' = s) ∨
      requireApproval principal .P3 approval "calendar.create_event" request.idempotencyKey now =
        .ok () ∧
      ((∃ stored, s.eventsByKey.get? (principal.tenantId, request.idempotencyKey) = some stored ∧
          s.fingerprints.get? (principal.tenantId, request.idempotencyKey) =
            some (platform.fingerprint request.json) ∧
          r = .ok { stored with reused := true } ∧ s' = s) ∨
        (s.eventsByKey.get? (principal.tenantId, request.idempotencyKey) = none ∧
          takenByOther s.keyByEventId (principal.tenantId, eventIdOf request fresh)
            request.idempotencyKey = false ∧
          r = .ok (request.result (eventIdOf request fresh)) ∧
          s' = {
            eventsByKey := s.eventsByKey.set (principal.tenantId, request.idempotencyKey)
              (request.result (eventIdOf request fresh))
            keyByEventId := s.keyByEventId.set (principal.tenantId, eventIdOf request fresh)
              request.idempotencyKey
            fingerprints := s.fingerprints.set (principal.tenantId, request.idempotencyKey)
              (platform.fingerprint request.json) })) := by
  unfold createEvent at h
  rcases Op.ofExcept_bind_cases h with ⟨e, -, ho⟩ | ⟨_, happ, h⟩
  · cases ho; exact .inl ⟨e, rfl, rfl⟩
  rw [Op.get_bind] at h
  cases hk : s.eventsByKey.get? (principal.tenantId, request.idempotencyKey) with
  | some stored =>
    simp only [hk] at h
    cases hfp : s.fingerprints.get? (principal.tenantId, request.idempotencyKey) with
    | none =>
      simp only [hfp] at h
      cases h; exact .inl ⟨_, rfl, rfl⟩
    | some fp =>
      simp only [hfp] at h
      split_ifs at h with hne
      · cases h; exact .inl ⟨_, rfl, rfl⟩
      · cases h
        exact .inr ⟨happ, .inl ⟨stored, rfl, by rw [not_not.mp hne], rfl, rfl⟩⟩
  | none =>
    simp only [hk] at h
    split_ifs at h with hid
    · cases h; exact .inl ⟨_, rfl, rfl⟩
    · rw [Op.modify_bind] at h
      cases h
      exact .inr ⟨happ, .inr ⟨rfl, by simpa using hid, rfl, rfl⟩⟩

end LocalCalendarTool

structure InMemoryEventStore (platform : Platform) where
  eventsByKey : Dict Key (CloudEvent platform)
  fingerprints : Dict Key Digest

namespace InMemoryEventStore

def empty : InMemoryEventStore platform := ⟨.empty, .empty⟩

def append (principal : Principal) (event : CloudEvent platform) :
    Op (InMemoryEventStore platform) PyError (CloudEvent platform) := do
  .ofExcept (requireTrustedPrincipal principal)
  .ofExcept (require (event.tenantId = principal.tenantId)
    (.assistant .permissionDenied "event tenant mismatch" (some principal.tenantId)))
  let key := (principal.tenantId, event.id)
  let eventFingerprint := platform.fingerprint (CloudEvent.json event.toCloudEventFields)
  let self ← .get
  match self.eventsByKey.get? key with
  | some existing =>
    match self.fingerprints.get? key with
    | none => .raise (.keyError event.id)
    | some stored =>
      if stored ≠ eventFingerprint then .raise (conflict "event idempotency conflict" principal)
      else pure existing
  | none =>
    .modify fun s =>
      { eventsByKey := s.eventsByKey.set key event
        fingerprints := s.fingerprints.set key eventFingerprint }
    pure event

def listForTenant (principal : Principal) :
    Op (InMemoryEventStore platform) PyError (List (CloudEvent platform)) := do
  .ofExcept (requireTrustedPrincipal principal)
  let self ← .get
  return (self.eventsByKey.entries.filter fun e => e.1.1 = principal.tenantId).map Prod.snd

/-- `append` raised without writing, returned the stored event, or stored a new one. -/
theorem append_cases {principal : Principal} {event : CloudEvent platform}
    {s s' : InMemoryEventStore platform} {r : Except PyError (CloudEvent platform)}
    (h : append principal event s = (r, s')) :
    (∃ e, r = .error e ∧ s' = s) ∨
      principal.trusted = true ∧ event.tenantId = principal.tenantId ∧
      ((∃ stored, s.eventsByKey.get? (principal.tenantId, event.id) = some stored ∧
          r = .ok stored ∧ s' = s) ∨
        (s.eventsByKey.get? (principal.tenantId, event.id) = none ∧ r = .ok event ∧
          s' = {
            eventsByKey := s.eventsByKey.set (principal.tenantId, event.id) event
            fingerprints := s.fingerprints.set (principal.tenantId, event.id)
              (platform.fingerprint (CloudEvent.json event.toCloudEventFields)) })) := by
  unfold append at h
  rcases Op.ofExcept_bind_cases h with ⟨e, -, ho⟩ | ⟨_, htr, h⟩
  · cases ho; exact .inl ⟨e, rfl, rfl⟩
  rcases Op.ofExcept_bind_cases h with ⟨e, -, ho⟩ | ⟨_, hten, h⟩
  · cases ho; exact .inl ⟨e, rfl, rfl⟩
  have htr := requireTrustedPrincipal_eq_ok.mp htr
  have hten : event.tenantId = principal.tenantId := by simpa [require] using hten
  rw [Op.get_bind] at h
  cases hk : s.eventsByKey.get? (principal.tenantId, event.id) with
  | some stored =>
    simp only [hk] at h
    cases hfp : s.fingerprints.get? (principal.tenantId, event.id) with
    | none =>
      simp only [hfp] at h
      cases h; exact .inl ⟨_, rfl, rfl⟩
    | some fp =>
      simp only [hfp] at h
      split_ifs at h with hne
      · cases h; exact .inl ⟨_, rfl, rfl⟩
      · cases h
        exact .inr ⟨htr, hten, .inl ⟨stored, rfl, rfl, rfl⟩⟩
  | none =>
    simp only [hk] at h
    rw [Op.modify_bind] at h
    cases h
    exact .inr ⟨htr, hten, .inr ⟨rfl, rfl, rfl⟩⟩

end InMemoryEventStore

end PersonalAssistant
