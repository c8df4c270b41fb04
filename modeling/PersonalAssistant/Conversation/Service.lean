import PersonalAssistant.Conversation.Messages
import PersonalAssistant.Lib.Ports
import PersonalAssistant.Reminders.Workflow

/-!
# The conversation service

`ConversationCommandService.handle` as a program over the calls of the reminder workflow and those on its
own ports: the approval store and the lists it counts and shows. The answer of the language model is a
response like any other. `ServiceCall.Effect` is what one call may do to the stores.
-/
namespace PersonalAssistant

open Lib Program InMemoryOutbox

variable {platform : Platform}

/-- A call on a port of the service itself. -/
inductive ServiceCall (platform : Platform) where
  | createApproval (principal : Principal) (approval : PendingApproval)
  | getApproval (principal : Principal) (approvalId : String)
  | approve (principal : Principal) (approvalId : String)
  | reject (principal : Principal) (approvalId : String)
  | listPending (principal : Principal)
  | listStates (principal : Principal)
  | listStored (principal : Principal)
  | listMessages (principal : Principal)
  | listEvents (principal : Principal)

abbrev ServiceCall.Resp : ServiceCall platform → Type
  | createApproval .. => Except PyError PendingApproval
  | getApproval .. => Except PyError (Option PendingApproval)
  | approve .. => Except PyError ApprovalGrant
  | reject .. => Except PyError PendingApproval
  | listPending .. => Except PyError (List PendingApproval)
  | listStates .. => Except PyError (List WorkflowState)
  | listStored .. => Except PyError (List (CloudEvent platform))
  | listMessages .. => Except PyError (List (OutboxMessage platform))
  | listEvents .. => Except PyError (List CalendarEventResult)

abbrev serviceCalls (platform : Platform) : Signature := ⟨ServiceCall platform, ServiceCall.Resp⟩

abbrev conversationCalls (platform : Platform) : Signature :=
  (workflowCalls platform).sum (serviceCalls platform)

abbrev ConversationProgram (platform : Platform) (α : Type) :=
  Program (conversationCalls platform) PyError α

/-- A program of the reminder workflow. -/
abbrev within {α : Type} (p : WorkflowProgram platform α) : ConversationProgram platform α :=
  p.left (serviceCalls platform)

/-- The configuration of the service. `lower` is the host's `str.lower`, `renderIntent` the prompt
catalog, and `accepts` whether a confidence reaches `LLM_INTENT_CONFIDENCE_THRESHOLD`. -/
structure ConversationCommandService (platform : Platform) where
  reminderWorkflow : ReminderWorkflow platform
  replies : AssistantReplies
  helpLines : Except String (List String)
  llm : Bool
  lower : String → String
  renderIntent : String → DateTime → String → Except String String
  accepts : Confidence platform → Bool

namespace ConversationCommandService

variable (svc : ConversationCommandService platform) (principal : Principal)

/-- A command result whose reply is a text of the catalog. -/
def reply (status : AgentStatus) (kind : CommandKind) (text : Except String String) :
    ConversationProgram platform CommandResult := do
  let text ← ofExcept (external text)
  ofExcept (CommandResult.create status kind text none [])

def start : ConversationProgram platform CommandResult :=
  reply .completed .start (svc.replies.text "start")

def help : ConversationProgram platform CommandResult :=
  reply .completed .help (svc.helpLines.map "\n".intercalate)

def unsupported : ConversationProgram platform CommandResult :=
  reply .declined .unsupported (svc.replies.text "unsupported")

def listPending : ConversationProgram platform (List PendingApproval) := do
  let pending ← perform (S := conversationCalls platform) (.inr (.listPending principal))
  ofExcept pending

/-- `_status`. -/
def status : ConversationProgram platform CommandResult := do
  let pending ← listPending principal
  let states ← perform (S := conversationCalls platform) (.inr (.listStates principal))
  let states ← ofExcept states
  let events ← perform (S := conversationCalls platform) (.inr (.listStored principal))
  let events ← ofExcept events
  let messages ← perform (S := conversationCalls platform) (.inr (.listMessages principal))
  let messages ← ofExcept messages
  reply .completed .status (svc.replies.format "status" [
    ("pending_count", toString pending.length), ("state_count", toString states.length),
    ("event_count", toString events.length), ("outbox_count", toString messages.length)])

/-- `AssistantReplies.agenda`. -/
def agendaReply (events : List CalendarEventResult) : Except String String := do
  let header ← svc.replies.text "agenda_header"
  let rows ← events.mapM fun event => svc.replies.format "agenda_row"
    [("starts_at", event.startsAt.isoformat), ("title", event.title), ("event_id", event.eventId)]
  return "\n".intercalate (header :: rows)

/-- `_agenda`: the ten earliest events, earlier stored ones first. -/
def agenda : ConversationProgram platform CommandResult := do
  let events ← perform (S := conversationCalls platform) (.inr (.listEvents principal))
  let events ← ofExcept events
  let events := events.mergeSort fun a b => decide (a.startsAt ≤ b.startsAt)
  if events.isEmpty then reply .completed .agenda (svc.replies.text "agenda_empty")
  else reply .completed .agenda (svc.agendaReply (events.take 10))

/-- `AssistantReplies.pending_approvals`. -/
def pendingReply (approvals : List PendingApproval) : Except String String := do
  let header ← svc.replies.text "pending_header"
  let rows ← approvals.mapM fun approval => svc.replies.format "pending_row"
    [("approval_id", approval.approvalId), ("action", approval.action),
      ("request_text", approval.requestText)]
  let footer ← svc.replies.text "pending_footer"
  return "\n".intercalate (header :: rows ++ [footer])

/-- `_pending`. -/
def pending : ConversationProgram platform CommandResult := do
  let pending ← listPending principal
  if pending.isEmpty then reply .completed .pendingApprovals (svc.replies.text "pending_empty")
  else reply .escalated .pendingApprovals (svc.pendingReply pending)

/-- `_reminder_result_metadata`. -/
def reminderResultMetadata (result : ReminderWorkflowResult) : Members :=
  let optional (value : Option String) : Json := (value.map Json.str).getD .null
  [("idempotency_key", .str result.idempotencyKey), ("source_event_id", .str result.sourceEventId),
    ("payload_fingerprint", .str result.payloadFingerprint), ("timezone", .str result.timezone),
    ("clarification_reason", optional (result.clarification.map ReminderClarificationReason.value)),
    ("clarification_reply_id",
      optional (result.clarification.map fun reason => "reminder_" ++ reason.value)),
    ("clarification_reply_version", optional (result.clarification.map fun _ => "v1"))]

/-- The record `_create_reminder` asks the approval store to keep. -/
def approvalRecord (platform : Platform) (principal : Principal) (message : NormalizedMessage)
    (text idempotencyKey : String) (result : ReminderWorkflowResult) (requestNow createdAt : Instant) :
    PendingApproval where
  approvalId := approvalIdOf platform principal.tenantId principal.principalId idempotencyKey
  tenantId := principal.tenantId
  principalId := principal.principalId
  action := "calendar.create_event"
  resource := idempotencyKey ++ ":calendar"
  tier := "P3"
  workflowKind := "reminder.create"
  messageId := message.messageId
  sourceEventId := result.sourceEventId
  conversationId := message.conversationId
  channel := message.channel.value
  recipient := message.conversationId
  requestText := text
  requestNow := requestNow
  timezone := result.timezone
  idempotencyKey := result.idempotencyKey
  payloadFingerprint := result.payloadFingerprint
  status := .pending
  createdAt := createdAt
  updatedAt := none

def createApproval (approval : PendingApproval) : ConversationProgram platform PendingApproval := do
  let stored ← perform (S := conversationCalls platform) (.inr (.createApproval principal approval))
  ofExcept stored

/-- The end of `_create_reminder`, behind the run of the workflow. -/
def escalate (message : NormalizedMessage) (text : String) (now : DateTime) (idempotencyKey : String)
    (result : ReminderWorkflowResult) : ConversationProgram platform CommandResult := do
  if result.approvalRequired then
    let requestNow ← ofExcept (canonicalizeDatetime now)
    let createdAt ← within ReminderWorkflow.utcnow
    let approval ← ofExcept (PendingApproval.modelValidate platform (approvalRecord platform principal
      message text idempotencyKey result requestNow createdAt))
    let approval ← createApproval principal approval
    let hint ← ofExcept (external (svc.replies.format "approval_command_hint"
      [("approval_id", approval.approvalId)]))
    ofExcept (CommandResult.create .escalated .reminderCreate (result.reply ++ "\n" ++ hint)
      (some approval.approvalId) (reminderResultMetadata result ++ [("approval_required", .bool true)]))
  else
    ofExcept (CommandResult.create result.status .reminderCreate result.reply none
      (reminderResultMetadata result))

/-- `reminder_idempotency_key` of a message. -/
def messageIdentity (platform : Platform) (principal : Principal) (message : NormalizedMessage) :
    Except PyError ReminderIdempotencyIdentity :=
  ReminderIdempotencyIdentity.create platform principal.tenantId message.channel.value
    principal.principalId message.conversationId message.sourceEventId

/-- The request of `_create_reminder`. -/
def createRequest (message : NormalizedMessage) (text : String) (now : DateTime) (timezone : String)
    (idempotencyKey : String) : Except PyError ReminderWorkflowInput :=
  ReminderWorkflowInput.create message.messageId message.sourceEventId message.conversationId text
    message.channel.value message.conversationId now timezone (some idempotencyKey) none

/-- `_create_reminder`. -/
def createReminder (message : NormalizedMessage) (text : String) (now : DateTime) (timezone : String) :
    ConversationProgram platform CommandResult := do
  if strip text = "" then
    reply .needsClarification .reminderCreate (svc.replies.text "reminder_missing_text")
  else
    let identity ← ofExcept (messageIdentity platform principal message)
    let idempotencyKey := identity.idempotencyKey platform
    let request ← ofExcept (createRequest message text now timezone idempotencyKey)
    let result ← within (svc.reminderWorkflow.run principal request)
    svc.escalate principal message text now idempotencyKey result

/-- The request of `_approve`, rebuilt from the record. -/
def approvedRequest (approval : PendingApproval) (grant : ApprovalGrant) :
    Except PyError ReminderWorkflowInput :=
  ReminderWorkflowInput.create approval.messageId approval.sourceEventId approval.conversationId
    approval.requestText approval.channel approval.recipient (.ofInstant approval.requestNow)
    approval.timezone (some approval.idempotencyKey) (some grant)

/-- `_approve` with a grant. -/
def runApproved (approval : PendingApproval) (grant : ApprovalGrant) :
    ConversationProgram platform CommandResult := do
  let request ← ofExcept (approvedRequest approval grant)
  let result ← within (svc.reminderWorkflow.run principal request)
  ofExcept (CommandResult.create result.status .approve result.reply none
    (reminderResultMetadata result))

/-- `_approve`. -/
def approve (text : String) : ConversationProgram platform CommandResult := do
  match restOfWords text with
  | none => reply .needsClarification .approve (svc.replies.text "approve_missing_id")
  | some argument =>
    let found ← perform (S := conversationCalls platform) (.inr (.getApproval principal (strip argument)))
    match ← ofExcept found with
    | none => reply .failed .approve (svc.replies.text "approval_not_found")
    | some approval =>
      if approval.workflowKind ≠ "reminder.create" then
        reply .failed .approve (svc.replies.text "approval_type_unsupported")
      else
        let granted ← perform (S := conversationCalls platform)
          (.inr (.approve principal approval.approvalId))
        match granted with
        | .ok grant => svc.runApproved principal approval grant
        | .error e =>
          if e.code?.isSome then reply .failed .approve (svc.replies.text "approval_failed") else raise e

/-- `_cancel`. -/
def cancel (text : String) : ConversationProgram platform CommandResult := do
  match restOfWords text with
  | none => reply .needsClarification .cancel (svc.replies.text "cancel_missing_id")
  | some argument =>
    let rejected ← perform (S := conversationCalls platform) (.inr (.reject principal (strip argument)))
    match rejected with
    | .ok _ => reply .completed .cancel (svc.replies.text "approval_cancelled")
    | .error e =>
      if e.code?.isSome then reply .failed .cancel (svc.replies.text "approval_cancel_failed")
      else raise e

/-- The end of `_infer_intent`: the trace of the model call, and whether its answer is used. -/
def recordInference (runId : String) : Option (InferredCommandIntent platform) →
    ConversationProgram platform (Option (InferredCommandIntent platform))
  | none => do
    let _ ← within (ReminderWorkflow.writeTrace .agentFailed principal.tenantId runId)
    return none
  | some inferred => do
    let _ ← within (ReminderWorkflow.writeTrace .llmCalled principal.tenantId runId)
    return if svc.accepts inferred.confidence then some inferred else none

/-- `_infer_intent`: whatever goes wrong with prompt, model or answer, there is no intent. -/
def inferIntent (message : NormalizedMessage) (text : String) (now : DateTime) (timezone : String) :
    ConversationProgram platform (Option (InferredCommandIntent platform)) := do
  if !svc.llm then return none
  let runId := "command:" ++ message.channel.value ++ ":" ++ message.conversationId ++ ":" ++
    message.messageId ++ ":intent"
  match svc.renderIntent text now timezone with
  | .error _ => svc.recordInference principal runId none
  | .ok prompt =>
    let answer ← perform (S := conversationCalls platform) (.inl (.complete "conversation_intent" prompt))
    svc.recordInference principal runId (answer.toOption.bind fun data =>
      (InferredCommandIntent.modelValidate platform data).toOption)

/-- `_handle_inferred_intent`. -/
def handleInferredIntent (message : NormalizedMessage) (inferred : InferredCommandIntent platform)
    (now : DateTime) (timezone : String) : ConversationProgram platform CommandResult :=
  match inferred.kind, inferred.reminderText with
  | .reminderCreate, some reminderText => svc.createReminder principal message
      (workflowTextFromInferredReminder message.text reminderText.text) now timezone
  | .help, _ => svc.help
  | .status, _ => svc.status principal
  | .agenda, _ => svc.agenda principal
  | .pendingApprovals, _ => svc.pending principal
  | _, _ => svc.unsupported

/-- What `handle` does with a text that is no command it knows. -/
def handleText (message : NormalizedMessage) (text : String) (now : DateTime) (timezone : String) :
    ConversationProgram platform CommandResult := do
  let inferred ← if !startsWith (svc.lower text) "/"
    then svc.inferIntent principal message text now timezone else pure none
  match inferred with
  | some inferred => svc.handleInferredIntent principal message inferred now timezone
  | none =>
    if looksLikeReminder svc.lower text then
      svc.createReminder principal message (extractReminderText svc.lower text) now timezone
    else svc.unsupported

/-- `handle`. -/
def handle (message : NormalizedMessage) (now : DateTime) (timezone : String) :
    ConversationProgram platform CommandResult :=
  let text := strip message.text
  let lowered := svc.lower text
  let command := message.command
  if command = some "start" ∨ lowered = "/start" then svc.start
  else if command = some "help" ∨ lowered = "/help" then svc.help
  else if command = some "status" ∨ lowered = "/status" then svc.status principal
  else if command = some "agenda" ∨ lowered = "/agenda" then svc.agenda principal
  else if command = some "pendientes" ∨ lowered = "/pendientes" then svc.pending principal
  else if command = some "aprobar" ∨ startsWith lowered "/aprobar" then svc.approve principal text
  else if command = some "cancelar" ∨ startsWith lowered "/cancelar" then svc.cancel principal text
  else if command = some "recordar" then
    svc.createReminder principal message (strip message.commandArgs) now timezone
  else svc.handleText principal message text now timezone

end ConversationCommandService

/-! ## What the calls do -/

/-- The stores behind the service. -/
@[ext]
structure ConversationStores (platform : Platform) where
  reminders : ReminderStores platform
  approvals : InMemoryApprovalStore

def ConversationStores.empty : ConversationStores platform := ⟨.empty, .empty⟩

namespace ServiceCall

/-- A call on the approval store. -/
def OnApprovals {α : Type} (x : InMemoryApprovalStore.Method α) (s : ConversationStores platform)
    (r : Except PyError α) (s' : ConversationStores platform) : Prop :=
  x s.approvals = (r, s'.approvals) ∧ s'.reminders = s.reminders

open InMemoryApprovalStore in
/-- What a call may return and leave in the stores. -/
def Effect : (c : ServiceCall platform) → ConversationStores platform → c.Resp →
    ConversationStores platform → Prop
  | createApproval principal approval, s, r, s' =>
    WorkflowCall.Unavailable s r s' ∨ OnApprovals (create platform principal approval) s r s'
  | getApproval principal id, s, r, s' =>
    WorkflowCall.Unavailable s r s' ∨ OnApprovals (get principal id) s r s'
  | approve principal id, s, r, s' => WorkflowCall.Unavailable s r s' ∨
    ∃ now, OnApprovals (InMemoryApprovalStore.approve platform principal id now) s r s'
  | reject principal id, s, r, s' => WorkflowCall.Unavailable s r s' ∨
    ∃ now, OnApprovals (InMemoryApprovalStore.reject principal id now) s r s'
  | listPending principal, s, r, s' => WorkflowCall.Unavailable s r s' ∨
    OnApprovals (InMemoryApprovalStore.listPending principal) s r s'
  | listStates principal, s, r, s' => s' = s ∧ ((∃ name, r = .error (.external name)) ∨
    r = (InMemoryWorkflowStateStore.listForTenant principal s.reminders.states).1)
  | listStored principal, s, r, s' => s' = s ∧ ((∃ name, r = .error (.external name)) ∨
    r = (InMemoryEventStore.listForTenant principal s.reminders.eventStore).1)
  | listMessages principal, s, r, s' => s' = s ∧ ((∃ name, r = .error (.external name)) ∨
    r = (InMemoryOutbox.listForTenant principal s.reminders.outbox).1)
  | listEvents principal, s, r, s' => s' = s ∧ ((∃ name, r = .error (.external name)) ∨
    r = (LocalCalendarTool.listEvents principal s.reminders.calendar).1)

end ServiceCall

namespace ServiceCall

/-- A call on the approval store that is answered. -/
def serveApprovals {α : Type} (x : InMemoryApprovalStore.Method α) (s : ConversationStores platform) :
    Except PyError α × ConversationStores platform :=
  let o := x s.approvals
  (o.1, ⟨s.reminders, o.2⟩)

open InMemoryApprovalStore in
/-- Stores that all answer, at a clock that stands still; to evaluate on. -/
def serve : (c : ServiceCall platform) → ConversationStores platform → c.Resp × ConversationStores platform
  | createApproval principal approval, s => serveApprovals (create platform principal approval) s
  | getApproval principal id, s => serveApprovals (get principal id) s
  | approve principal id, s =>
    serveApprovals (InMemoryApprovalStore.approve platform principal id ⟨0, Nat.zero_le _⟩) s
  | reject principal id, s =>
    serveApprovals (InMemoryApprovalStore.reject principal id ⟨0, Nat.zero_le _⟩) s
  | listPending principal, s => serveApprovals (InMemoryApprovalStore.listPending principal) s
  | listStates principal, s =>
    ((InMemoryWorkflowStateStore.listForTenant principal s.reminders.states).1, s)
  | listStored principal, s => ((InMemoryEventStore.listForTenant principal s.reminders.eventStore).1, s)
  | listMessages principal, s => ((InMemoryOutbox.listForTenant principal s.reminders.outbox).1, s)
  | listEvents principal, s => ((LocalCalendarTool.listEvents principal s.reminders.calendar).1, s)

theorem effect_serve (c : ServiceCall platform) (s : ConversationStores platform) :
    c.Effect s (c.serve s).1 (c.serve s).2 := by
  cases c with
  | createApproval => exact .inr ⟨rfl, rfl⟩
  | getApproval => exact .inr ⟨rfl, rfl⟩
  | approve => exact .inr ⟨_, rfl, rfl⟩
  | reject => exact .inr ⟨_, rfl, rfl⟩
  | listPending => exact .inr ⟨rfl, rfl⟩
  | listStates => exact ⟨rfl, .inr rfl⟩
  | listStored => exact ⟨rfl, .inr rfl⟩
  | listMessages => exact ⟨rfl, .inr rfl⟩
  | listEvents => exact ⟨rfl, .inr rfl⟩

end ServiceCall

/-- What a call of a conversation may do. -/
def ConversationCall.Effect : (c : (conversationCalls platform).Call) → ConversationStores platform →
    (conversationCalls platform).Resp c → ConversationStores platform → Prop
  | .inl c, s, r, s' => WorkflowCall.Effect c s.reminders r s'.reminders ∧ s'.approvals = s.approvals
  | .inr c, s, r, s' => ServiceCall.Effect c s r s'

/-- Every call is answered, and identifiers are `fresh`. -/
def ConversationCall.serve (fresh : Uuid) : (c : (conversationCalls platform).Call) →
    ConversationStores platform → (conversationCalls platform).Resp c × ConversationStores platform
  | .inl c, s =>
    let o := WorkflowCall.serve fresh c s.reminders
    (o.1, ⟨o.2, s.approvals⟩)
  | .inr c, s => ServiceCall.serve c s

theorem ConversationCall.effect_serve (fresh : Uuid) (c : (conversationCalls platform).Call)
    (s : ConversationStores platform) : Effect c s (serve fresh c s).1 (serve fresh c s).2 := by
  rcases c with c | c
  · exact ⟨WorkflowCall.effect_serve fresh c s.reminders, rfl⟩
  · exact ServiceCall.effect_serve c s

/-! ## Turns of a conversation -/

/-- One call of `handle`. -/
structure ConversationTurn (platform : Platform) where
  service : ConversationCommandService platform
  principal : Principal
  message : NormalizedMessage
  now : DateTime
  timezone : String

namespace ConversationTurn

variable {ι : Type}

def program (turn : ConversationTurn platform) : ConversationProgram platform CommandResult :=
  turn.service.handle turn.principal turn.message turn.now turn.timezone

abbrev ConversationPool (platform : Platform) (ι : Type) :=
  Pool (conversationCalls platform) (ConversationStores platform) ι PyError CommandResult

/-- The turns before their first call. -/
def pool (turns : ι → ConversationTurn platform) (s : ConversationStores platform) :
    ConversationPool platform ι where
  state := s
  threads i := (turns i).program

/-- Whoever issues a call, it does the same to the stores. -/
def semantics (platform : Platform) (ι : Type) :
    Semantics (conversationCalls platform) (ConversationStores platform) ι :=
  fun _ c s r s' => ConversationCall.Effect c s r s'

end ConversationTurn

end PersonalAssistant
