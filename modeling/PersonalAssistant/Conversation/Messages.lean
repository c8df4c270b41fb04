import PersonalAssistant.Reminders.Models
import PersonalAssistant.Stores.Approvals

/-!
# Messages and commands

What the conversation service receives and answers: normalized channel messages, command results, intents
inferred by a language model, and the pending approvals and workflow requests it builds. `create` and
`modelValidate` are the constructors of the validated models.
-/
namespace PersonalAssistant

open Lib InMemoryOutbox

variable {platform : Platform}

/-! ## Text -/

/-- `text.startswith(prefix)`. -/
def startsWith (text beginning : String) : Bool := beginning.toList.isPrefixOf text.toList

/-- `part in text`. -/
def contains (text part : String) : Bool := text.toList.tails.any part.toList.isPrefixOf

/-- `text.split(maxsplit=1)`, where it has two parts: the rest behind the first word and the blanks that
follow it. -/
def restOfWords (text : String) : Option String :=
  let rest := ((text.toList.dropWhile isSpace).dropWhile (!isSpace ·)).dropWhile isSpace
  if rest = [] then none else some (String.ofList rest)

/-- The beginnings of `_looks_like_reminder`. -/
def reminderBeginnings : List String := [
  "/recordar ", "recuérdame ", "recuerdame ", "recordarme ", "puedes recordarme ",
  "podrías recordarme ", "necesito que me recuerdes ", "quiero que me recuerdes ", "me recuerdas ",
  "me recuerdes ", "agéndame ", "agendame ", "agendarme ", "agenda ", "agendar ", "avísame ",
  "avisame ", "me avisas ", "me puedes avisar "]

/-- `_looks_like_reminder`; `lower` is the host's `str.lower`. -/
def looksLikeReminder (lower : String → String) (text : String) : Bool :=
  let normalized := lower (strip text)
  reminderBeginnings.any (startsWith normalized) ||
    (contains normalized "cita" && contains normalized "las ")

/-- `_extract_reminder_text`. -/
def extractReminderText (lower : String → String) (text : String) : String :=
  let stripped := strip text
  let lowered := lower stripped
  if startsWith lowered "/recordar " then
    strip (String.ofList (stripped.toList.drop "/recordar ".length))
  else if startsWith lowered "/" then strip ((restOfWords stripped).getD "")
  else stripped

/-- `_workflow_text_from_inferred_reminder`. -/
def workflowTextFromInferredReminder (originalText reminderText : String) : String :=
  if strip reminderText = "" then originalText else "recordatorio " ++ strip reminderText

/-! ## Messages -/

/-- A message of a channel, without its media. -/
structure NormalizedMessage where
  channel : ChannelName
  conversationId : String
  messageId : String
  sourceEventId : String
  text : String
  command : Option String
  commandArgs : String
  nonempty : ∀ value ∈ [conversationId, messageId, sourceEventId, text] ++ command.toList, value ≠ ""

inductive CommandKind where
  | start
  | help
  | status
  | reminderCreate
  | agenda
  | pendingApprovals
  | approve
  | cancel
  | unsupported
deriving DecidableEq, Repr

namespace CommandKind

def value : CommandKind → String
  | start => "start"
  | help => "help"
  | status => "status"
  | reminderCreate => "reminder.create"
  | agenda => "agenda"
  | pendingApprovals => "pending_approvals"
  | approve => "approve"
  | cancel => "cancel"
  | unsupported => "unsupported"

def all : List CommandKind :=
  [start, help, status, reminderCreate, agenda, pendingApprovals, approve, cancel, unsupported]

/-- `CommandKind` as a field of a model. -/
def read : Json → Except PyError CommandKind
  | .str text =>
    match all.find? fun kind => kind.value = text with
    | some kind => .ok kind
    | none => .error (.validationError "Input should be a command kind")
  | _ => .error (.validationError "Input should be a command kind")

end CommandKind

structure CommandResult where
  status : AgentStatus
  kind : CommandKind
  reply : RequiredText
  approvalId : Option String
  dispatchRequired : Bool
  metadata : Members

/-- `CommandResult(...)`. -/
def CommandResult.create (status : AgentStatus) (kind : CommandKind) (reply : String)
    (approvalId : Option String) (metadata : Members) : Except PyError CommandResult := do
  let reply ← RequiredText.create reply
  return ⟨status, kind, reply, approvalId.map trim, true, metadata⟩

theorem CommandResult.create_approvalId {status : AgentStatus} {kind : CommandKind} {reply : String}
    {approvalId : Option String} {metadata : Members} {r : CommandResult}
    (h : create status kind reply approvalId metadata = .ok r) : r.approvalId = approvalId.map trim := by
  obtain ⟨_, -, h⟩ := except_bind_eq_ok.mp h
  cases h
  rfl

structure InferredCommandIntent (platform : Platform) where
  kind : CommandKind
  confidence : Confidence platform
  reminderText : Option RequiredText

namespace InferredCommandIntent

def readReminderText : Option Json → Except PyError (Option RequiredText)
  | none => .ok none
  | some .null => .ok none
  | some (.str text) => do
    let text ← RequiredText.create text
    require (text.text.length ≤ 500) (.validationError "String should have at most 500 characters")
    return some text
  | some _ => .error (.validationError "Input should be a valid string")

/-- `InferredCommandIntent.model_validate`; unknown members are forbidden. -/
def modelValidate (platform : Platform) (data : Members) :
    Except PyError (InferredCommandIntent platform) := do
  require (data.all fun e => e.1 ∈ ["kind", "confidence", "reminder_text"])
    (.validationError "Extra inputs are not permitted")
  let kind ← CommandKind.read ((data.lookup "kind").getD .null)
  let confidence ← Confidence.read ((data.lookup "confidence").getD .null)
  let reminderText ← readReminderText (data.lookup "reminder_text")
  return ⟨kind, confidence, reminderText⟩

end InferredCommandIntent

/-! ## Requests and approvals -/

/-- `ReminderWorkflowInput(...)`. -/
def ReminderWorkflowInput.create (messageId sourceEventId conversationId text channel recipient : String)
    (now : DateTime) (timezone : String) (idempotencyKey : Option String)
    (approval : Option ApprovalGrant) : Except PyError ReminderWorkflowInput := do
  let messageId ← RequiredText.create messageId
  let sourceEventId ← RequiredText.create sourceEventId
  let conversationId ← RequiredText.create conversationId
  let text ← RequiredText.create text
  let channel ← ChannelName.ofValue channel
  let recipient ← RequiredText.create recipient
  let now ← canonicalizeDatetime now
  let timezone ← RequiredText.create timezone
  return ⟨messageId, sourceEventId, conversationId, text, channel, recipient, now, timezone,
    idempotencyKey.map trim, approval⟩

/-- `_approval_id`. -/
def approvalIdOf (platform : Platform) (tenantId principalId idempotencyKey : String) : String :=
  "ap_" ++ String.ofList ((platform.sha256
    (tenantId ++ ":" ++ principalId ++ ":" ++ idempotencyKey)).text.toList.take 10)

namespace PendingApproval

/-- `str_strip_whitespace`. -/
def trimmed (a : PendingApproval) : PendingApproval where
  approvalId := trim a.approvalId
  tenantId := trim a.tenantId
  principalId := trim a.principalId
  action := trim a.action
  resource := trim a.resource
  tier := trim a.tier
  workflowKind := trim a.workflowKind
  messageId := trim a.messageId
  sourceEventId := trim a.sourceEventId
  conversationId := trim a.conversationId
  channel := trim a.channel
  recipient := trim a.recipient
  requestText := trim a.requestText
  requestNow := a.requestNow
  timezone := trim a.timezone
  idempotencyKey := trim a.idempotencyKey
  payloadFingerprint := trim a.payloadFingerprint
  status := a.status
  createdAt := a.createdAt
  updatedAt := a.updatedAt

/-- The texts with `min_length=1`. -/
def requiredTexts (a : PendingApproval) : List String :=
  [a.approvalId, a.tenantId, a.principalId, a.action, a.resource, a.workflowKind, a.messageId,
    a.sourceEventId, a.conversationId, a.channel, a.recipient, a.requestText, a.idempotencyKey]

/-- `PendingApproval(...)`. -/
def modelValidate (platform : Platform) (a : PendingApproval) : Except PyError PendingApproval := do
  let a := a.trimmed
  require (a.requiredTexts.all (· ≠ "")) (.validationError "String should have at least 1 character")
  require (2 ≤ a.tier.length) (.validationError "String should have at least 2 characters")
  requireFingerprint a.payloadFingerprint
  require (platform.isZone a.timezone) (.validationError "timezone must be a valid IANA timezone")
  return a

end PendingApproval

end PersonalAssistant
