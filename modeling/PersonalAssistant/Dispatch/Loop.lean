import PersonalAssistant.Dispatch.Reachable
import PersonalAssistant.Lib.Fences

/-!
# The loop of `dispatch`

Any number of workers run `DispatchDueReminders.dispatch` over one pair of stores. `DispatchPhase` is
where a worker is in its loop, between two of its transactions or around the call of the provider, and a
step moves one worker, or an operator, or anybody who writes reminders. A worker may stop anywhere. What
happened to the messages is kept in a log; every step is a step of `DispatchState`, or an addition.
-/
namespace PersonalAssistant

open Lib InMemoryOutbox InMemoryReminderTransaction ReminderStores Relation

variable {platform : Platform} {α : Type}

/-! ## Requests and answers -/

/-- The dispatch key of an attempt. -/
def attemptKey (messageId : String) (attempt : Nat) : String :=
  messageId ++ ":attempt:" ++ toString attempt

/-- `_attempt_idempotency_key`. -/
def attemptIdempotencyKey (message : OutboxMessage platform) : String :=
  attemptKey message.id (message.attempts + 1)

/-- The tenant and the identifier of a message. -/
def OutboxMessage.reference (message : OutboxMessage platform) : Key := (message.tenantId, message.id)

/-- A request as `_notification_request` builds it, without media and send time. -/
structure NotificationRequest where
  channel : String
  recipient : String
  body : String
  idempotencyKey : String
deriving DecidableEq

/-- `channel not in {"telegram", "whatsapp"}`; a list or a mapping has no hash. -/
def requireChannel : Option Json → Except PyError String
  | some (.str channel) =>
    if channel = "telegram" ∨ channel = "whatsapp" then .ok channel
    else .error (.valueError "unsupported notification channel")
  | some (.arr _) => .error (.typeError "unhashable type: 'list'")
  | some (.obj _) => .error (.typeError "unhashable type: 'dict'")
  | _ => .error (.valueError "unsupported notification channel")

/-- A text of the payload that is not blank. -/
def requireText (message : String) : Option Json → Except PyError String
  | some (.str text) => if strip text = "" then .error (.valueError message) else .ok text
  | _ => .error (.valueError message)

/-- `_notification_request`. -/
def notificationRequest (message : OutboxMessage platform) (dispatchKey : String) :
    Except PyError NotificationRequest := do
  require (message.event.type = REMINDER_NOTIFICATION_EVENT_TYPE)
    (.valueError "outbox event is not a reminder notification")
  require (subjectOf message).isSome
    (.valueError "reminder notification requires a scheduler subject")
  let channel ← requireChannel (message.event.data.lookup "channel")
  let recipient ← requireText "notification recipient must be non-empty text"
    (message.event.data.lookup "recipient")
  let body ← requireText "notification body must be non-empty text"
    (message.event.data.lookup "body")
  return ⟨channel, recipient, body, dispatchKey⟩

/-- `except (ValueError, TypeError)`. -/
def isMalformed : PyError → Bool
  | .typeError _ => true
  | e => e.isValueError

/-- What a call of the provider ends in. -/
inductive ProviderAnswer where
  | raised
  | returned (channel idempotencyKey : String) (result : NotificationResult)

/-- The result `dispatch` records: an answer to another request is none. -/
def ProviderAnswer.accepted (request : NotificationRequest) :
    ProviderAnswer → Option NotificationResult
  | raised => none
  | returned channel idempotencyKey result =>
    if idempotencyKey = request.idempotencyKey ∧ channel = request.channel then some result else none

/-! ## Workers -/

/-- Where a worker is in `dispatch`, with the messages of its batch that are still to do. -/
inductive DispatchPhase (platform : Platform) where
  | idle
  | swept (principal : Principal) (now : Instant)
  | looping (principal : Principal) (now : Instant) (rest : List (OutboxMessage platform))
  | sending (principal : Principal) (now : Instant) (request : NotificationRequest)
      (message : OutboxMessage platform) (rest : List (OutboxMessage platform))
  | answered (principal : Principal) (now : Instant) (request : NotificationRequest)
      (message : OutboxMessage platform) (result : Option NotificationResult)
      (rest : List (OutboxMessage platform))

/-- What happened to a message, by its reference: its committed sends are the fences, the requests handed
to the provider are the uses, a recorded transient result returns a use, and an operator's retry reopens
the message. -/
abbrev DispatchEvent := FenceEvent Key String

/-- The dispatch key behind a fence. -/
def attemptLabel (message : Key) (attempt : Nat) : String := attemptKey message.2 attempt

/-- The stores with what was handed out, the phase of every worker, and the log, its last event
first. -/
structure DispatchPool (platform : Platform) (Worker : Type) where
  state : DispatchState platform
  phase : Worker → DispatchPhase platform
  log : List DispatchEvent

namespace DispatchPool

variable {Worker : Type} [DecidableEq Worker] (c : DispatchPool platform Worker)

/-- How a transaction ends when it is run now. -/
def result (principal : Principal) (x : Block platform α) : Except PyError α :=
  (begin_ principal x c.state.stores).1

/-- A worker ran a transaction that left `state`. It goes on, or an exception ends its dispatch. -/
def advance (w : Worker) (state : DispatchState platform) (result : Except PyError α)
    (next : α → DispatchPhase platform) (events : α → List DispatchEvent) :
    DispatchPool platform Worker :=
  match result with
  | .ok a => ⟨state, Function.update c.phase w (next a), events a ++ c.log⟩
  | .error _ => ⟨state, Function.update c.phase w .idle, c.log⟩

/-- A worker moves without a transaction. -/
def move (w : Worker) (next : DispatchPhase platform) (events : List DispatchEvent) :
    DispatchPool platform Worker :=
  ⟨c.state, Function.update c.phase w next, events ++ c.log⟩

/-- The event of a recorded result. -/
def recordedEvents (request : NotificationRequest) (final : OutboxMessage platform) :
    List DispatchEvent :=
  if final.dispatchStatus = .pending then [.returned final.reference request.idempotencyKey] else []

/-- The event of an operator's resolution. -/
def resolvedEvents (final : OutboxMessage platform) : List DispatchEvent :=
  if final.dispatchStatus = .pending then [.reopened final.reference] else []

/-- The approval `dispatch` asks for before a send. -/
def approves (principal : Principal) (approval : Option ApprovalGrant) (dispatchKey : String)
    (clock : Instant) : Except PyError Unit :=
  requireApproval principal .P5 approval "notification.send" dispatchKey clock

open DispatchDueReminders in
/-- One step: of a worker, which takes its settings from `config`, of an operator, or of somebody who
writes reminders in the transactions that `admits` allows. -/
inductive Step (config : Worker → DispatchDueReminders) (admits : Block platform Unit → Prop) :
    DispatchPool platform Worker → Prop where
  | sweep {w : Worker} (idle : c.phase w = .idle) (principal : Principal) (now : Instant) :
      Step config admits (c.advance w
        (c.state.after principal ((config w).sweepExpiredSending principal now))
        (c.result principal ((config w).sweepExpiredSending principal now))
        (fun _ => .swept principal now) fun _ => [])
  | claim {w : Worker} {principal : Principal} {now : Instant} (swept : c.phase w = .swept principal now)
      (tokens : Key → Uuid) (fresh : c.state.Fresh tokens) :
      Step config admits (c.advance w (c.state.afterClaim (config w) principal now tokens)
        (c.result principal ((config w).claim principal now tokens))
        (fun claimed => .looping principal now claimed.1) fun _ => [])
  | finish {w : Worker} {principal : Principal} {now : Instant}
      (looping : c.phase w = .looping principal now []) : Step config admits (c.move w .idle [])
  | release {w : Worker} {principal : Principal} {now : Instant} {message : OutboxMessage platform}
      {rest : List (OutboxMessage platform)} (looping : c.phase w = .looping principal now (message :: rest))
      (approval : Option ApprovalGrant) (clock : Instant) {e : PyError}
      (refused : approves principal approval (attemptIdempotencyKey message) clock = .error e)
      (caught : e.code?.isSome = true) :
      Step config admits (c.advance w (c.state.after principal (releaseBeforeIo principal message now))
        (c.result principal (releaseBeforeIo principal message now))
        (fun _ => .looping principal now rest) fun _ => [])
  | malformed {w : Worker} {principal : Principal} {now : Instant} {message : OutboxMessage platform}
      {rest : List (OutboxMessage platform)} (looping : c.phase w = .looping principal now (message :: rest))
      (approval : Option ApprovalGrant) (clock : Instant)
      (approved : approves principal approval (attemptIdempotencyKey message) clock = .ok ())
      {e : PyError} (refused : notificationRequest message (attemptIdempotencyKey message) = .error e)
      (caught : isMalformed e = true) (now' : Instant) :
      Step config admits (c.advance w (c.state.after principal (recordMalformed principal message now'))
        (c.result principal (recordMalformed principal message now'))
        (fun _ => .looping principal now rest) fun _ => [])
  | confirm {w : Worker} {principal : Principal} {now : Instant} {message : OutboxMessage platform}
      {rest : List (OutboxMessage platform)} (looping : c.phase w = .looping principal now (message :: rest))
      (approval : Option ApprovalGrant) (clock : Instant)
      (approved : approves principal approval (attemptIdempotencyKey message) clock = .ok ())
      {request : NotificationRequest}
      (built : notificationRequest message (attemptIdempotencyKey message) = .ok request)
      (now' : Instant) :
      Step config admits (c.advance w (c.state.afterConfirm ⟨principal, message, now⟩ now')
        (c.result principal (confirmSending principal message now'))
        (fun sending => .sending principal now request sending rest)
        fun sending => [.fenced sending.reference sending.attempts])
  | send {w : Worker} {principal : Principal} {now : Instant} {request : NotificationRequest}
      {message : OutboxMessage platform} {rest : List (OutboxMessage platform)}
      (sending : c.phase w = .sending principal now request message rest) (answer : ProviderAnswer) :
      Step config admits (c.move w (.answered principal now request message (answer.accepted request) rest)
        [.used message.reference request.idempotencyKey])
  | unknown {w : Worker} {principal : Principal} {now : Instant} {request : NotificationRequest}
      {message : OutboxMessage platform} {rest : List (OutboxMessage platform)}
      (answered : c.phase w = .answered principal now request message none rest) (now' : Instant) :
      Step config admits (c.advance w (c.state.after principal (recordUnknown principal message now'))
        (c.result principal (recordUnknown principal message now'))
        (fun _ => .looping principal now rest) fun _ => [])
  | record {w : Worker} {principal : Principal} {now : Instant} {request : NotificationRequest}
      {message : OutboxMessage platform} {result : NotificationResult}
      {rest : List (OutboxMessage platform)}
      (answered : c.phase w = .answered principal now request message (some result) rest)
      (now' : Instant) :
      Step config admits (c.advance w
        (c.state.after principal (recordResult principal message result now'))
        (c.result principal (recordResult principal message result now'))
        (fun _ => .looping principal now rest) (recordedEvents request))
  | crash (w : Worker) : Step config admits (c.move w .idle [])
  | resolve (principal : Principal) (messageId resolution : String) (now : Instant) :
      Step config admits {
        state := c.state.after principal (@resolveUncertain platform principal messageId resolution now)
        phase := c.phase
        log := match c.result principal (@resolveUncertain platform principal messageId resolution now) with
          | .ok final => resolvedEvents final ++ c.log
          | .error _ => c.log }
  | write (principal : Principal) {x : Block platform Unit} (admitted : admits x) :
      Step config admits { c with state := c.state.after principal x }
  | elsewhere (states : InMemoryWorkflowStateStore) :
      Step config admits { c with
        state := { c.state with stores := { c.state.stores with states := states } } }

/-- The pools that workers without a task reach from empty stores. -/
inductive Reachable (config : Worker → DispatchDueReminders) (admits : Block platform Unit → Prop) :
    DispatchPool platform Worker → Prop where
  | start : Reachable config admits ⟨⟨.empty, [], []⟩, fun _ => .idle, []⟩
  | step {c c' : DispatchPool platform Worker} :
      Reachable config admits c → Step c config admits c' → Reachable config admits c'

/-! ## Steps of the pool are steps of the stores -/

section Steps

variable {c c' : DispatchPool platform Worker} {config : Worker → DispatchDueReminders}
  {admits : Block platform Unit → Prop}

@[simp] theorem advance_state (w : Worker) (state : DispatchState platform) (result : Except PyError α)
    (next : α → DispatchPhase platform) (events : α → List DispatchEvent) :
    (c.advance w state result next events).state = state := by
  cases result <;> rfl

/-- What a worker holds was handed to it. -/
def Handed (s : DispatchState platform) : DispatchPhase platform → Prop
  | .idle | .swept .. => True
  | .looping principal now rest => ∀ m ∈ rest, ⟨principal, m, now⟩ ∈ s.claimed
  | .sending principal now _ message rest | .answered principal now _ message _ rest =>
    ⟨principal, message⟩ ∈ s.sending ∧ ∀ m ∈ rest, ⟨principal, m, now⟩ ∈ s.claimed

theorem Handed.mono {s s' : DispatchState platform} {phase : DispatchPhase platform}
    (h : Handed s phase) (claimed : ∀ g ∈ s.claimed, g ∈ s'.claimed)
    (sending : ∀ g ∈ s.sending, g ∈ s'.sending) : Handed s' phase := by
  cases phase with
  | idle => trivial
  | swept => trivial
  | looping => exact fun m hm => claimed _ (h m hm)
  | sending => exact ⟨sending _ h.1, fun m hm => claimed _ (h.2 m hm)⟩
  | answered => exact ⟨sending _ h.1, fun m hm => claimed _ (h.2 m hm)⟩

/-- Lists of what was handed out only grow. -/
structure Grows (s s' : DispatchState platform) : Prop where
  claimed : ∀ g ∈ s.claimed, g ∈ s'.claimed
  sending : ∀ g ∈ s.sending, g ∈ s'.sending

theorem grows_after (s : DispatchState platform) (principal : Principal) (x : Block platform α) :
    Grows s (s.after principal x) := ⟨fun _ h => h, fun _ h => h⟩

theorem grows_afterClaim (s : DispatchState platform) (d : DispatchDueReminders) (principal : Principal)
    (now : Instant) (tokens : Key → Uuid) : Grows s (s.afterClaim d principal now tokens) := by
  unfold DispatchState.afterClaim
  split
  · exact ⟨fun _ h => List.mem_append_left _ h, fun _ h => h⟩
  · exact ⟨fun _ h => h, fun _ h => h⟩

theorem grows_afterConfirm (s : DispatchState platform) (h : ClaimedMessage platform) (now : Instant) :
    Grows s (s.afterConfirm h now) := by
  unfold DispatchState.afterConfirm
  split
  · exact ⟨fun _ h => h, fun _ h => List.mem_append_left _ h⟩
  · exact ⟨fun _ h => h, fun _ h => h⟩

/-- Moving one worker keeps what every other worker holds. -/
theorem handed_update {phase : Worker → DispatchPhase platform} {s s' : DispatchState platform}
    (h : ∀ v, Handed s (phase v)) (grows : Grows s s') {w : Worker} (next : DispatchPhase platform)
    (hw : Handed s' next) (v : Worker) : Handed s' (Function.update phase w next v) := by
  by_cases hv : v = w
  · subst hv
    rwa [Function.update_self]
  · rw [Function.update_of_ne hv]
    exact (h v).mono grows.claimed grows.sending

theorem handed_advance (h : ∀ v, Handed c.state (c.phase v)) {w : Worker}
    {state : DispatchState platform} (grows : Grows c.state state) {result : Except PyError α}
    {next : α → DispatchPhase platform} {events : α → List DispatchEvent}
    (hnext : ∀ a, result = .ok a → Handed state (next a)) (v : Worker) :
    Handed (c.advance w state result next events).state
      ((c.advance w state result next events).phase v) := by
  rw [advance_state]
  cases result with
  | ok a => exact handed_update h grows _ (hnext a rfl) v
  | error e => exact handed_update h grows .idle trivial v

theorem handed_move (h : ∀ v, Handed c.state (c.phase v)) {w : Worker}
    (next : DispatchPhase platform) {events : List DispatchEvent} (hnext : Handed c.state next)
    (v : Worker) : Handed (c.move w next events).state ((c.move w next events).phase v) :=
  handed_update h ⟨fun _ h => h, fun _ h => h⟩ next hnext v

theorem Step.handed (step : Step c config admits c') (h : ∀ v, Handed c.state (c.phase v)) (v : Worker) :
    Handed c'.state (c'.phase v) := by
  have hold : ∀ {w phase}, c.phase w = phase → Handed c.state phase := fun {w _} hw => hw ▸ h w
  cases step with
  | sweep =>
    refine handed_advance h (grows_after _ _ _) ?_ v
    exact fun _ _ => trivial
  | @claim w principal now swept tokens fresh =>
    refine handed_advance h (grows_afterClaim _ _ _ _ _) ?_ v
    intro claimed hclaimed m hm
    unfold DispatchState.afterClaim
    rcases hb : begin_ principal ((config w).claim principal now tokens) c.state.stores with ⟨r, s⟩
    cases (congrArg Prod.fst hb).symm.trans hclaimed
    exact List.mem_append_right _ (List.mem_map.mpr ⟨m, hm, rfl⟩)
  | finish => exact handed_move h .idle trivial v
  | release looping =>
    refine handed_advance h (grows_after _ _ _) ?_ v
    exact fun _ _ m hm => hold looping m (List.mem_cons_of_mem _ hm)
  | malformed looping =>
    refine handed_advance h (grows_after _ _ _) ?_ v
    exact fun _ _ m hm => hold looping m (List.mem_cons_of_mem _ hm)
  | @confirm w principal now message rest looping _ _ _ request _ now' =>
    have grows := grows_afterConfirm c.state ⟨principal, message, now⟩ now'
    refine handed_advance h grows ?_ v
    intro sending hsending
    refine ⟨?_, fun m hm => grows.claimed _ (hold looping m (List.mem_cons_of_mem _ hm))⟩
    unfold DispatchState.afterConfirm
    rcases hb : begin_ principal (DispatchDueReminders.confirmSending principal message now')
      c.state.stores with ⟨r, s⟩
    cases (congrArg Prod.fst hb).symm.trans hsending
    exact List.mem_append_right _ (List.mem_singleton.mpr rfl)
  | @send w principal now request message rest sending answer =>
    exact handed_move h (.answered principal now request message _ rest) (hold sending :) v
  | unknown answered =>
    refine handed_advance h (grows_after _ _ _) ?_ v
    exact fun _ _ => (hold answered).2
  | record answered =>
    refine handed_advance h (grows_after _ _ _) ?_ v
    exact fun _ _ => (hold answered).2
  | crash w => exact handed_move h .idle trivial v
  | resolve => exact h v
  | write => exact h v
  | elsewhere => exact h v

/-- Blocks made of the calls of a workflow run only. -/
def WritesOnly (x : Block platform Unit) : Prop := Through ApprovedRun.Writes x

/-- A step of the pool is, for the stores, a step of the workers or nothing. -/
theorem Step.outcome (step : Step c config admits c') (writes : ∀ x, admits x → WritesOnly x)
    (inv : Inv c.state.stores.outbox) (h : ∀ v, Handed c.state (c.phase v)) :
    c.state.Outcome c'.state := by
  have hold : ∀ {w phase}, c.phase w = phase → Handed c.state phase := fun {w _} hw => hw ▸ h w
  cases step with
  | sweep idle principal now =>
    rw [advance_state]
    exact (DispatchState.Step.sweep _ principal now).outcome inv
  | claim swept tokens fresh =>
    rw [advance_state]
    exact (DispatchState.Step.claim _ _ _ tokens fresh).outcome inv
  | finish => exact .quiet .refl
  | release looping =>
    rw [advance_state]
    exact (DispatchState.Step.release _ (hold looping _ List.mem_cons_self)).outcome inv
  | malformed looping approval clock approved refused caught now' =>
    rw [advance_state]
    exact (DispatchState.Step.malformed _ (hold looping _ List.mem_cons_self) now').outcome inv
  | confirm looping approval clock approved built now' =>
    rw [advance_state]
    exact (DispatchState.Step.confirm _ (hold looping _ List.mem_cons_self) now').outcome inv
  | send => exact .quiet .refl
  | unknown answered now' =>
    rw [advance_state]
    exact (DispatchState.Step.unknown _ (hold answered).1 now').outcome inv
  | record answered now' =>
    rw [advance_state]
    exact (DispatchState.Step.record _ (hold answered).1 _ now').outcome inv
  | crash => exact .quiet .refl
  | resolve principal messageId resolution now =>
    exact (DispatchState.Step.resolve principal messageId resolution now).outcome inv
  | write principal admitted =>
    exact DispatchState.outcome_after ((writes _ admitted).mono fun call hcall => by
      cases call with
      | outbox o => cases o <;> trivial
      | _ => trivial)
  | elsewhere states => exact .quiet (.single (.inr ⟨states, rfl⟩))

/-- In a reachable pool every worker holds what it was handed, and the stores are consistent. -/
theorem Reachable.handed (h : Reachable config admits c) (v : Worker) : Handed c.state (c.phase v) := by
  induction h generalizing v with
  | start => trivial
  | step _ step ih => exact step.handed ih v

theorem Reachable.consistent (h : Reachable config admits c) (writes : ∀ x, admits x → WritesOnly x) :
    c.state.Consistent := by
  induction h with
  | start => exact ⟨.empty, by simp⟩
  | step reachable step ih =>
    exact ih.outcome (step.outcome writes ih.stores.outbox reachable.handed)

end Steps

end DispatchPool

end PersonalAssistant
