import PersonalAssistant.Reminders.Idempotency
import PersonalAssistant.Stores.WorkflowStates

/-!
# Reminder models

Extractions, drafts, the request and the result of the reminder workflow. A value of a validated model
carries the checks it has passed; `create` is the constructor that performs them.
-/
namespace PersonalAssistant

open Lib InMemoryOutbox

variable {platform : Platform}

inductive AgentStatus where
  | completed
  | needsClarification
  | declined
  | escalated
  | failed
deriving DecidableEq, Repr

inductive ReminderIntent where
  | create
  | unsupported
deriving DecidableEq, Repr

inductive ReminderClarificationReason where
  | ambiguousHour
  | missingDate
  | missingTime
  | missingDatetime
  | nonexistentLocalTime
  | ambiguousLocalTime
  | invalidTimezone
deriving DecidableEq, Repr

namespace ReminderClarificationReason

def value : ReminderClarificationReason → String
  | ambiguousHour => "ambiguous_hour"
  | missingDate => "missing_date"
  | missingTime => "missing_time"
  | missingDatetime => "missing_datetime"
  | nonexistentLocalTime => "nonexistent_local_time"
  | ambiguousLocalTime => "ambiguous_local_time"
  | invalidTimezone => "invalid_timezone"

def all : List ReminderClarificationReason :=
  [ambiguousHour, missingDate, missingTime, missingDatetime, nonexistentLocalTime, ambiguousLocalTime,
    invalidTimezone]

/-- The reason stored in workflow data, `missing_datetime` when there is none. -/
def ofData (data : Members) : ReminderClarificationReason :=
  match data.lookup "clarification_reason" with
  | some (.str s) => (all.find? fun r => r.value = s).getD missingDatetime
  | _ => missingDatetime

end ReminderClarificationReason

inductive ReminderUnsupportedReason where
  | notAReminder
  | invalidReferenceInstant
  | invalidRelativeAmount
  | invalidTime
  | pastTime
  | conflictingTemporalExpression
deriving DecidableEq, Repr

namespace ReminderWorkflowStep

def classify : String := "classify"
def needsClarification : String := "needs_clarification"
def approvalRequired : String := "approval_required"
def completed : String := "completed"

end ReminderWorkflowStep

/-! ## Extractions and drafts -/

/-- A text field that is trimmed and has at least one character. -/
@[ext] structure RequiredText where
  text : String
  trimmed : Trimmed text
  ne : text ≠ ""

instance : DecidableEq RequiredText := fun _ _ => decidable_of_iff _ RequiredText.ext_iff.symm

def RequiredText.create (value : String) : Except PyError RequiredText :=
  if h : trim value = "" then .error (.validationError "String should have at least 1 character")
  else .ok ⟨trim value, trimmed_trim value, h⟩

@[simp] theorem RequiredText.create_text (t : RequiredText) : RequiredText.create t.text = .ok t := by
  obtain ⟨text, ht, hne⟩ := t
  have htrim : trim text = text := ht
  simp [RequiredText.create, htrim, hne]

theorem RequiredText.create_eq_ok {value : String} {t : RequiredText}
    (h : RequiredText.create value = .ok t) : t.text = trim value := by
  unfold RequiredText.create at h
  split_ifs at h
  cases h; rfl

namespace RequiredText

/-! Texts to evaluate on. -/

def utc : RequiredText := ⟨"UTC", by decide, by decide⟩

def callHome : RequiredText := ⟨"Call home", by decide, by decide⟩

def dentist : RequiredText := ⟨"Dentista", by decide, by decide⟩

end RequiredText

/-- A float between 0 and 1. -/
abbrev Confidence (platform : Platform) := { n : JsonNumber // platform.inUnitInterval n = true }

/-- A confidence of 0.9, to evaluate on. -/
def Confidence.sample : Confidence (.ofTable []) := ⟨⟨"0.9", by decide, by simp⟩, by decide⟩

def Confidence.ofNumber (n : JsonNumber) : Except PyError (Confidence platform) :=
  if h : platform.inUnitInterval n = true then .ok ⟨n, h⟩
  else .error (.validationError "Input should be between 0 and 1")

@[simp] theorem Confidence.ofNumber_val (c : Confidence platform) : Confidence.ofNumber c.val = .ok c := by
  simp [Confidence.ofNumber, c.property]

/-- The confidence field read from a JSON value. -/
def Confidence.read : Json → Except PyError (Confidence platform)
  | .num n => ofNumber n
  | j =>
    match platform.readFloat j with
    | some n => ofNumber n
    | none => .error (.validationError "Input should be a valid number")

/-- Title, zone, instants in UTC and a confidence. -/
structure ReminderExtraction (platform : Platform) where
  title : RequiredText
  timezone : RequiredText
  isZone : platform.isZone timezone.text = true
  startsAt : Instant
  notifyAt : Option Instant
  confidence : Confidence platform

theorem RequiredText.isZone_utc (digests : List (String × Digest)) :
    (Platform.ofTable digests).isZone utc.text = true := by
  simp [Platform.ofTable, utc]

/-- A call home, to evaluate on. -/
def ReminderExtraction.sample {digests : List (String × Digest)} : ReminderExtraction (.ofTable digests) where
  title := .callHome
  timezone := .utc
  isZone := RequiredText.isZone_utc digests
  startsAt := ⟨63902946600000000, by decide⟩
  notifyAt := none
  confidence := .sample

/-- `canonicalize_datetime`. -/
def canonicalizeDatetime (value : DateTime) : Except PyError Instant :=
  match value.offset with
  | none => .error (.validationError "reminder datetimes must be timezone-aware")
  | some offset => Instant.ofMicros (value.utcMicros offset)

def canonicalizeOptional : Option DateTime → Except PyError (Option Instant)
  | none => .ok none
  | some d => (canonicalizeDatetime d).map some

@[simp] theorem canonicalizeDatetime_ofInstant (t : Instant) :
    canonicalizeDatetime (.ofInstant t) = .ok t := by
  have h := t.le_max
  simp [canonicalizeDatetime, DateTime.ofInstant, DateTime.utcMicros, Instant.ofMicros, h]

@[simp] theorem canonicalizeOptional_ofInstant (t : Option Instant) :
    canonicalizeOptional (t.map .ofInstant) = .ok t := by
  cases t with
  | none => rfl
  | some t => simp [canonicalizeOptional, Except.map]

namespace ReminderExtraction

def create (platform : Platform) (title timezone : String) (startsAt : DateTime)
    (notifyAt : Option DateTime) (confidence : Json) :
    Except PyError (ReminderExtraction platform) := do
  let title ← RequiredText.create title
  let timezone ← RequiredText.create timezone
  let startsAt ← canonicalizeDatetime startsAt
  let notifyAt ← canonicalizeOptional notifyAt
  let confidence ← Confidence.read confidence
  if hz : platform.isZone timezone.text = true then
    return ⟨title, timezone, hz, startsAt, notifyAt, confidence⟩
  else .error (.validationError "timezone must be a valid IANA timezone")

/-- Building an extraction from the fields of one returns it. -/
theorem create_fields (e : ReminderExtraction platform) :
    create platform e.title.text e.timezone.text (.ofInstant e.startsAt) (e.notifyAt.map .ofInstant)
      (.num e.confidence.val) = .ok e := by
  simp [create, Confidence.read, e.isZone, pure, Except.pure]

end ReminderExtraction

/-- Parser results. -/
inductive ReminderParseResult (platform : Platform) where
  | parsed (extraction : ReminderExtraction platform)
  | needsClarification (reason : ReminderClarificationReason) (timezone : Option String)
  | unsupported (reason : ReminderUnsupportedReason)

/-- A draft has the fields and validators of an extraction. -/
abbrev ReminderDraft (platform : Platform) := ReminderExtraction platform

namespace ReminderDraft

def fromExtraction (e : ReminderExtraction platform) : Except PyError (ReminderDraft platform) :=
  ReminderExtraction.create platform e.title.text e.timezone.text (.ofInstant e.startsAt)
    (e.notifyAt.map .ofInstant) (.num e.confidence.val)

def toExtraction (d : ReminderDraft platform) : Except PyError (ReminderExtraction platform) :=
  ReminderExtraction.create platform d.title.text d.timezone.text (.ofInstant d.startsAt)
    (d.notifyAt.map .ofInstant) (.num d.confidence.val)

@[simp] theorem fromExtraction_eq (e : ReminderExtraction platform) : fromExtraction e = .ok e :=
  e.create_fields

@[simp] theorem toExtraction_eq (d : ReminderDraft platform) : toExtraction d = .ok d :=
  d.create_fields

def toWorkflowData (d : ReminderDraft platform) : Members :=
  [("confidence", .num d.confidence.val),
    ("notify_at", CloudEvent.textJson (d.notifyAt.map Instant.isoformat)),
    ("starts_at", .str d.startsAt.isoformat), ("timezone", .str d.timezone.text),
    ("title", .str d.title.text)]

/-- `data[key]`. -/
def item (data : Members) (key : String) : Except PyError Json :=
  match data.lookup key with
  | some value => .ok value
  | none => .error (.keyError key)

def readText : Json → Except PyError String
  | .str s => .ok s
  | _ => .error (.validationError "Input should be a valid string")

def readDatetime (platform : Platform) (value : Json) : Except PyError DateTime :=
  match platform.readDatetime value with
  | some d => .ok d
  | none => .error (.validationError "Input should be a valid datetime")

/-- `from_mapping`. -/
def fromMapping (platform : Platform) (data : Members) : Except PyError (ReminderDraft platform) := do
  let title ← item data "title"
  let startsAt ← item data "starts_at"
  let title ← readText title
  let timezone ← readText ((data.lookup "timezone").getD (.str "UTC"))
  let startsAt ← readDatetime platform startsAt
  let notifyAt ← match data.lookup "notify_at" with
    | none => .ok none
    | some .null => .ok none
    | some value => (readDatetime platform value).map some
  ReminderExtraction.create platform title timezone startsAt notifyAt
    ((data.lookup "confidence").getD (.num ⟨"0.86", by decide, by simp⟩))

end ReminderDraft

/-! ## Request and result -/

inductive ChannelName where
  | telegram
  | whatsapp
deriving DecidableEq, Repr

namespace ChannelName

def value : ChannelName → String
  | telegram => "telegram"
  | whatsapp => "whatsapp"

/-- `Literal["telegram", "whatsapp"]`. -/
def ofValue (value : String) : Except PyError ChannelName :=
  if value = "telegram" then .ok telegram
  else if value = "whatsapp" then .ok whatsapp
  else .error (.validationError "Input should be 'telegram' or 'whatsapp'")

@[simp] theorem ofValue_value (c : ChannelName) : ofValue c.value = .ok c := by cases c <;> rfl

end ChannelName

structure ReminderWorkflowInput where
  messageId : RequiredText
  sourceEventId : RequiredText
  conversationId : RequiredText
  text : RequiredText
  channel : ChannelName
  recipient : RequiredText
  now : Instant
  timezone : RequiredText
  idempotencyKey : Option String
  approval : Option ApprovalGrant

/-- A message of a chat, to evaluate on. -/
def ReminderWorkflowInput.sample (text : RequiredText) (now : Instant) (approval : Option ApprovalGrant) :
    ReminderWorkflowInput where
  messageId := ⟨"message-1", by decide, by decide⟩
  sourceEventId := ⟨"event-1", by decide, by decide⟩
  conversationId := ⟨"chat-1", by decide, by decide⟩
  text
  channel := .telegram
  recipient := ⟨"chat-1", by decide, by decide⟩
  now
  timezone := .utc
  idempotencyKey := none
  approval

/-- `reminder_idempotency`. -/
def reminderIdempotency (platform : Platform) (principal : Principal)
    (request : ReminderWorkflowInput) : Except PyError ReminderIdempotency := do
  let identity ← ReminderIdempotencyIdentity.create platform principal.tenantId request.channel.value
    principal.principalId request.conversationId.text request.sourceEventId.text
  let payload ← ReminderPayload.create platform request.text.text request.recipient.text
    request.timezone.text
  return { identity, payload }

structure ReminderWorkflowResult where
  status : AgentStatus
  intent : ReminderIntent
  reply : String
  idempotencyKey : String
  sourceEventId : String
  payloadFingerprint : String
  timezone : String
  clarification : Option ReminderClarificationReason
  approvalRequired : Bool
  calendarEventId : Option String
  reminderId : Option String
  reused : Bool
  traceIds : List String

namespace ReminderWorkflowResult

/-- The validators of the result. Identifier and version of a clarification reply always come from
`reminder_clarification`, so the reason determines them. -/
def validate (platform : Platform) (r : ReminderWorkflowResult) :
    Except PyError ReminderWorkflowResult := do
  requireNonempty r.sourceEventId
  requireFingerprint r.payloadFingerprint
  requireNonempty r.timezone
  require (r.clarification = some .invalidTimezone || platform.isZone r.timezone)
    (.validationError "timezone must be valid unless requesting timezone clarification")
  return r

theorem validate_eq_ok {r r' : ReminderWorkflowResult} (h : r.validate platform = .ok r') :
    r' = r ∧ (r.clarification = some .invalidTimezone ∨ platform.isZone r.timezone = true) := by
  unfold validate at h
  obtain ⟨_, -, h⟩ := except_bind_eq_ok.mp h
  obtain ⟨_, -, h⟩ := except_bind_eq_ok.mp h
  obtain ⟨_, -, h⟩ := except_bind_eq_ok.mp h
  obtain ⟨_, hz, h⟩ := except_bind_eq_ok.mp h
  cases h
  exact ⟨rfl, by simpa [require, or_iff_not_imp_left] using hz⟩

end ReminderWorkflowResult

/-! ## Guardrails and replies -/

inductive GuardrailCategory where
  | promptInjection
  | pii
  | contentPolicy
deriving DecidableEq, Repr

inductive GuardrailSeverity where
  | low
  | medium
  | high
deriving DecidableEq, Repr

/-- The findings of a scan, as far as enforcement reads them. -/
structure GuardrailResult where
  findings : List (GuardrailCategory × GuardrailSeverity)

namespace GuardrailResult

def blocked (r : GuardrailResult) : Bool := r.findings.any fun f => f.2 = .high

/-- `enforce_prompt_scan`. -/
def enforcePromptScan (r : GuardrailResult) : Except PyError Unit :=
  if !r.blocked then .ok ()
  else if r.findings.any fun f => f.1 = .promptInjection then
    .error (.assistant .promptInjectionDetected "prompt failed guardrail checks" none)
  else .error (.assistant .piiDetected "prompt failed guardrail checks" none)

/-- `enforce_output_scan`. -/
def enforceOutputScan (r : GuardrailResult) : Except PyError Unit :=
  if !r.blocked then .ok ()
  else .error (.assistant .guardrailBlocked "assistant output failed content policy checks" none)

end GuardrailResult

/-- An exception of a collaborator, known by the name of its class only. -/
def external {α : Type} : Except String α → Except PyError α
  | .ok a => .ok a
  | .error name => .error (.external name)

@[simp] theorem external_ok {α : Type} (a : α) : external (.ok a : Except String α) = .ok a := rfl

/-- A reply catalog: plain texts and templates by key. A missing key or placeholder raises. -/
structure AssistantReplies where
  text : String → Except String String
  format : String → List (String × String) → Except String String

namespace AssistantReplies

variable (r : AssistantReplies)

def reminderDuplicate : Except String String := r.text "reminder_duplicate"

/-- The copy of `reminder_clarification`; its identity is the key and its version is `v1`. -/
def reminderClarification (reason : ReminderClarificationReason) : Except String String :=
  r.text ("reminder_" ++ reason.value)

def reminderNeedsApproval (title : String) : Except String String :=
  r.format "reminder_needs_approval" [("title", title)]

def reminderNotificationBody (title : String) : Except String String :=
  r.format "reminder_notification_body" [("title", title)]

def minutesLabel (minutes : Int) : Except String String :=
  if minutes = 1 then r.text "minutes_singular"
  else r.format "minutes_plural" [("minutes", toString minutes)]

def reminderCreated (title : String) (minutesBefore : Int) (directNotice : Bool) :
    Except String String :=
  if directNotice then r.format "reminder_created_direct" [("title", title)]
  else do
    let label ← r.minutesLabel minutesBefore
    r.format "reminder_created_with_notice" [("title", title), ("minutes_label", label)]

end AssistantReplies

end PersonalAssistant
