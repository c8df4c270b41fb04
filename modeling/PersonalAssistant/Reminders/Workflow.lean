import PersonalAssistant.Dto.Tracing
import PersonalAssistant.Lib.Program
import PersonalAssistant.Reminders.Transaction

/-!
# The reminder workflow

`ReminderWorkflow.run` as a program over the calls it makes on its ports: traces, clock, identifiers,
language model, the workflow-state store and the unit of work. `WorkflowCall.Effect` is what one call may
do to the stores.
-/
namespace PersonalAssistant

open Lib Program InMemoryOutbox

variable {platform : Platform}

/-- A call on a port. -/
inductive WorkflowCall (platform : Platform) where
  | writeTrace (type : TraceEventType) (tenantId runId : String)
  | utcnow
  | uuid4
  | complete (schemaName text : String)
  | registerOrReplay (principal : Principal) (state : WorkflowState)
  | getByIdempotencyKey (principal : Principal) (idempotencyKey : String)
  | upsert (principal : Principal) (state : WorkflowState)
  | transact (principal : Principal) (run : ApprovedRun platform)

/-- What a call returns; a trace call returns the identifier of the trace it wrote. -/
abbrev WorkflowCall.Resp : WorkflowCall platform → Type
  | writeTrace .. => Except String String
  | utcnow => Instant
  | uuid4 => Uuid
  | complete .. => Except String Members
  | registerOrReplay .. => Except PyError WorkflowStateRegistration
  | getByIdempotencyKey .. => Except PyError (Option WorkflowState)
  | upsert .. => Except PyError WorkflowState
  | transact .. => Except PyError BlockResult

abbrev workflowCalls (platform : Platform) : Signature := ⟨WorkflowCall platform, WorkflowCall.Resp⟩

abbrev WorkflowProgram (platform : Platform) (α : Type) := Program (workflowCalls platform) PyError α

namespace ReminderWorkflow

variable (w : ReminderWorkflow platform)

def writeTrace (type : TraceEventType) (tenantId runId : String) : WorkflowProgram platform String := do
  let written ← perform (S := workflowCalls platform) (.writeTrace type tenantId runId)
  ofExcept (external written)

def registerOrReplay (principal : Principal) (state : WorkflowState) :
    WorkflowProgram platform WorkflowStateRegistration := do
  let registration ← perform (S := workflowCalls platform) (.registerOrReplay principal state)
  ofExcept registration

def getByIdempotencyKey (principal : Principal) (idempotencyKey : String) :
    WorkflowProgram platform (Option WorkflowState) := do
  let state ← perform (S := workflowCalls platform) (.getByIdempotencyKey principal idempotencyKey)
  ofExcept state

def upsert (principal : Principal) (state : WorkflowState) : WorkflowProgram platform WorkflowState := do
  let stored ← perform (S := workflowCalls platform) (.upsert principal state)
  ofExcept stored

def transact (principal : Principal) (run : ApprovedRun platform) :
    WorkflowProgram platform BlockResult := do
  let result ← perform (S := workflowCalls platform) (.transact principal run)
  ofExcept result

def utcnow : WorkflowProgram platform Instant := perform (S := workflowCalls platform) .utcnow
def uuid4 : WorkflowProgram platform Uuid := perform (S := workflowCalls platform) .uuid4

/-- `_guarded_reply`: scan, write the trace, then enforce. -/
def guardedReply (principal : Principal) (runId text : String) : WorkflowProgram platform String := do
  let outputScan ← ofExcept (external (w.scanOutput text))
  let _ ← writeTrace .guardrailChecked principal.tenantId runId
  ofExcept outputScan.enforceOutputScan
  return text

/-- `_registration_result` outside a transaction. -/
def registrationResult (principal : Principal) (i : ReminderIdempotency) (traceIds : List String)
    (registration : WorkflowStateRegistration) :
    WorkflowProgram platform (Option ReminderWorkflowResult) := do
  match ← ofExcept (w.replayOf registration) with
  | none => return none
  | some (text, replay) =>
    let reply ← w.guardedReply principal (i.key platform) text
    let result ← ofExcept (replay.result platform i traceIds reply)
    return some result

/-- `_extract_with_llm`: no exception of the provider or of reading its answer escapes. -/
def extractWithLlm (principal : Principal) (request : ReminderWorkflowInput) (runId : String) :
    WorkflowProgram platform (Option (ReminderExtraction platform) × String) := do
  let answer ← perform (S := workflowCalls platform) (.complete "reminder_extraction" request.text.text)
  let extraction := match answer with
    | .ok data => (w.reminderExtractionFromLlm data request.timezone.text).toOption.join
    | .error _ => none
  let traceId ← writeTrace .llmCalled principal.tenantId runId
  return (extraction, traceId)

/-- What `_resolve_extraction` returns. -/
structure Resolution (platform : Platform) where
  extraction : Option (ReminderExtraction platform)
  clarification : Option ReminderClarificationReason
  llmTraceId : Option String

def resolveExtraction (principal : Principal) (request : ReminderWorkflowInput) (runId : String) :
    WorkflowProgram platform (Resolution platform) := do
  match ← ofExcept (external
      (w.extractReminder request.text.text request.now request.timezone.text)) with
  | .parsed extraction => return ⟨some extraction, none, none⟩
  | .needsClarification reason _ => return ⟨none, some reason, none⟩
  | .unsupported reason =>
    if reason = .notAReminder && w.llm then
      let (extraction, traceId) ← w.extractWithLlm principal request runId
      return ⟨extraction, none, some traceId⟩
    else return ⟨none, none, none⟩

/-- The state a run registers. -/
def initialState (platform : Platform) (principal : Principal) (request : ReminderWorkflowInput)
    (i : ReminderIdempotency) (fresh : Uuid) (createdAt updatedAt : Instant) : WorkflowState where
  workflowId := "wf_" ++ fresh.hex
  tenantId := principal.tenantId
  workflowType := "reminder.create"
  status := .running
  step := ReminderWorkflowStep.classify
  idempotencyKey := i.key platform
  payloadFingerprint := some (i.payloadFingerprint platform)
  data := [("channel", .str request.channel.value),
    ("conversation_id", .str request.conversationId.text),
    ("message_id", .str request.messageId.text), ("source_event_id", .str i.identity.sourceEventId),
    ("timezone", .str i.payload.timezone)]
  createdAt := createdAt
  updatedAt := updatedAt

/-- The clarification branch of `_run_before_approval`. -/
def clarify (principal : Principal) (i : ReminderIdempotency) (state : WorkflowState)
    (traceIds : List String) (reason : ReminderClarificationReason) :
    WorkflowProgram platform ReminderWorkflowResult := do
  let text ← ofExcept (external (w.replies.reminderClarification reason))
  let reply ← w.guardedReply principal (i.key platform) text
  let waiting := state.transition .waitingApproval (some ReminderWorkflowStep.needsClarification)
    (clarificationData reason) (← utcnow)
  let _ ← upsert principal waiting
  ofExcept (ReminderWorkflowResult.validate platform
    { i.result platform traceIds .needsClarification .unsupported reply with
      clarification := some reason })

/-- The end of `_run_before_approval`: store the draft and ask for approval. -/
def requestApproval (principal : Principal) (i : ReminderIdempotency) (state : WorkflowState)
    (traceIds : List String) (extraction : ReminderExtraction platform) :
    WorkflowProgram platform ReminderWorkflowResult := do
  let approval ← writeTrace .approvalRequested principal.tenantId (i.key platform)
  let draft ← ofExcept (ReminderDraft.fromExtraction extraction)
  let waiting := state.transition .waitingApproval (some ReminderWorkflowStep.approvalRequired)
    (ReminderDraft.toWorkflowData draft) (← utcnow)
  let _ ← upsert principal waiting
  let text ← ofExcept (external (w.replies.reminderNeedsApproval extraction.title.text))
  let reply ← w.guardedReply principal (i.key platform) text
  ofExcept (ReminderWorkflowResult.validate platform
    { i.result platform (traceIds ++ [approval]) .escalated .create reply with
      approvalRequired := true })

/-- What `_run_before_approval` does once it holds a fresh registration. -/
def proceed (principal : Principal) (request : ReminderWorkflowInput) (i : ReminderIdempotency)
    (state : WorkflowState) (traceIds : List String) :
    WorkflowProgram platform ReminderWorkflowResult := do
  let resolution ← w.resolveExtraction principal request (i.key platform)
  let traceIds := traceIds ++ resolution.llmTraceId.toList
  match resolution.extraction with
  | none =>
    w.clarify principal i state traceIds (resolution.clarification.getD .missingDatetime)
  | some extraction => w.requestApproval principal i state traceIds extraction

/-- `_run_before_approval`. -/
def runBeforeApproval (principal : Principal) (request : ReminderWorkflowInput)
    (i : ReminderIdempotency) (state : WorkflowState) (traceIds : List String) :
    WorkflowProgram platform ReminderWorkflowResult := do
  let registration ← registerOrReplay principal state
  match ← w.registrationResult principal i traceIds registration with
  | some result => return result
  | none => w.proceed principal request i registration.state traceIds

/-- The end of an approved run, behind its transaction. -/
def finish (principal : Principal) (i : ReminderIdempotency) (traceIds : List String)
    (extraction : ReminderExtraction platform) (event : CalendarEventResult)
    (reminder : ScheduledReminder) (noticeMinutesBefore : Int) :
    WorkflowProgram platform ReminderWorkflowResult := do
  let toolTrace ← writeTrace .toolCalled principal.tenantId (i.key platform)
  let completedTrace ← writeTrace .agentCompleted principal.tenantId (i.key platform)
  let text ← ofExcept (external (w.replies.reminderCreated extraction.title.text noticeMinutesBefore
    extraction.notifyAt.isSome))
  let reply ← w.guardedReply principal (i.key platform) text
  ofExcept (ReminderWorkflowResult.validate platform
    { i.result platform (traceIds ++ [toolTrace, completedTrace]) .completed .create reply with
      calendarEventId := some event.eventId
      reminderId := some reminder.reminderId
      reused := event.reused })

/-- The extraction an approved run works with: the stored draft, a new one for an unknown key, none
otherwise. -/
def approvedExtraction (principal : Principal) (request : ReminderWorkflowInput)
    (i : ReminderIdempotency) (existing : Option WorkflowState) :
    WorkflowProgram platform (Resolution platform) :=
  match existing with
  | some state =>
    if state.status = .waitingApproval ∧ state.step = ReminderWorkflowStep.approvalRequired then do
      let draft ← ofExcept (ReminderDraft.fromMapping platform state.data)
      let extraction ← ofExcept (ReminderDraft.toExtraction draft)
      return ⟨some extraction, none, none⟩
    else return ⟨none, none, none⟩
  | none => w.resolveExtraction principal request (i.key platform)

/-- `existing_before_transaction` has the fingerprint of the request. -/
def requireSamePayload (platform : Platform) (principal : Principal) (i : ReminderIdempotency) :
    Option WorkflowState → Except PyError Unit
  | some state => require (state.payloadFingerprint = some (i.payloadFingerprint platform))
      (.reminderIdempotencyConflict principal.tenantId (i.key platform))
  | none => .ok ()

/-- The rest of `run` for a request with an approval. -/
def runApproved (principal : Principal) (request : ReminderWorkflowInput) (i : ReminderIdempotency)
    (state : WorkflowState) (traceIds : List String) :
    WorkflowProgram platform ReminderWorkflowResult := do
  let existing ← getByIdempotencyKey principal (i.key platform)
  ofExcept (requireSamePayload platform principal i existing)
  let resolution ← w.approvedExtraction principal request i existing
  let result ← transact principal {
    workflow := w
    request := request
    idempotency := i
    initialState := state
    extraction := resolution.extraction
    clarification := resolution.clarification
    baseTraceIds := traceIds
    llmTraceId := resolution.llmTraceId }
  match result, resolution.extraction with
  | .returned result, _ => return result
  | .created event reminder notice, some extraction =>
    w.finish principal i (traceIds ++ resolution.llmTraceId.toList) extraction event reminder notice
  | .created .., none =>
    raise (.runtimeError "committed reminder transaction produced no result")

/-- The key a request asserts, if any, is the derived one. -/
def requireDerivedKey (platform : Platform) (principal : Principal)
    (request : ReminderWorkflowInput) (i : ReminderIdempotency) : Except PyError Unit :=
  match request.idempotencyKey with
  | some key => require (key = i.key platform)
      (.reminderIdempotencyConflict principal.tenantId (i.key platform))
  | none => .ok ()

/-- An approval, if any, is checked before anything is stored. -/
def checkApproval (principal : Principal) (request : ReminderWorkflowInput) (i : ReminderIdempotency) :
    WorkflowProgram platform Unit :=
  match request.approval with
  | some grant => do
    let now ← utcnow
    ofExcept (requireApproval principal .P3 (some grant) "calendar.create_event"
      (i.key platform ++ ":calendar") now)
  | none => return ()

/-- `ReminderWorkflow.run`. -/
def run (principal : Principal) (request : ReminderWorkflowInput) :
    WorkflowProgram platform ReminderWorkflowResult := do
  let i ← ofExcept (reminderIdempotency platform principal request)
  let inputScan ← ofExcept (external (w.scanPrompt request.text.text))
  let guardrailTrace ← writeTrace .guardrailChecked principal.tenantId (i.key platform)
  ofExcept inputScan.enforcePromptScan
  ofExcept (requireDerivedKey platform principal request i)
  checkApproval principal request i
  let started ← writeTrace .agentStarted principal.tenantId (i.key platform)
  let contextTrace ← writeTrace .contextSelected principal.tenantId (i.key platform)
  let state := initialState platform principal request i (← uuid4) (← utcnow) (← utcnow)
  let traceIds := [started, guardrailTrace, contextTrace]
  if request.approval.isNone then w.runBeforeApproval principal request i state traceIds
  else w.runApproved principal request i state traceIds

end ReminderWorkflow

/-! ## What the calls do -/

namespace WorkflowCall

/-- An unavailable store: the call raises and changes nothing. -/
def Unavailable {σ α : Type} (s : σ) (r : Except PyError α) (s' : σ) : Prop :=
  (∃ name, r = .error (.external name)) ∧ s' = s

/-- What a call may return and leave in the stores. A block is atomic. -/
def Effect : (c : WorkflowCall platform) → ReminderStores platform → c.Resp →
    ReminderStores platform → Prop
  | writeTrace .., s, _, s' => s' = s
  | utcnow, s, _, s' => s' = s
  | uuid4, s, _, s' => s' = s
  | complete .., s, _, s' => s' = s
  | registerOrReplay principal state, s, r, s' => Unavailable s r s' ∨
      ∃ now, ReminderStores.onStates
        (InMemoryWorkflowStateStore.registerOrReplay principal state none now) s = (r, s')
  | getByIdempotencyKey principal key, s, r, s' => Unavailable s r s' ∨
      ReminderStores.onStates
        (InMemoryWorkflowStateStore.getByIdempotencyKey principal key) s = (r, s')
  | upsert principal state, s, r, s' => Unavailable s r s' ∨
      ReminderStores.onStates (InMemoryWorkflowStateStore.upsert platform principal state) s = (r, s')
  | transact principal run, s, r, s' =>
      ∃ env, InMemoryReminderTransaction.begin_ principal (run.block env principal) s = (r, s')

/-- Ports that all answer, at a clock that stands still; to evaluate on. -/
def serve (fresh : Uuid) : (c : WorkflowCall platform) → ReminderStores platform →
    c.Resp × ReminderStores platform
  | writeTrace .., s => (.ok "trace-1", s)
  | utcnow, s => (⟨0, Nat.zero_le _⟩, s)
  | uuid4, s => (fresh, s)
  | complete .., s => (.error "LLMError", s)
  | registerOrReplay principal state, s => ReminderStores.onStates
      (InMemoryWorkflowStateStore.registerOrReplay principal state none ⟨0, Nat.zero_le _⟩) s
  | getByIdempotencyKey principal key, s => ReminderStores.onStates
      (InMemoryWorkflowStateStore.getByIdempotencyKey principal key) s
  | upsert principal state, s => ReminderStores.onStates
      (InMemoryWorkflowStateStore.upsert platform principal state) s
  | transact principal run, s =>
      InMemoryReminderTransaction.begin_ principal (run.block (.sample fresh) principal) s

theorem effect_serve (fresh : Uuid) (c : WorkflowCall platform) (s : ReminderStores platform) :
    c.Effect s (c.serve fresh s).1 (c.serve fresh s).2 := by
  cases c with
  | writeTrace => rfl
  | utcnow => rfl
  | uuid4 => rfl
  | complete => rfl
  | registerOrReplay => exact .inr ⟨_, rfl⟩
  | getByIdempotencyKey => exact .inr rfl
  | upsert => exact .inr rfl
  | transact => exact ⟨_, rfl⟩

end WorkflowCall

end PersonalAssistant
