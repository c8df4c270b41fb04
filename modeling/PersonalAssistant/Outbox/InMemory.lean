import Mathlib.Data.List.Sort
import PersonalAssistant.Lib.Dict
import PersonalAssistant.Dto.Events

/-!
# The in-memory outbox

Method bodies of `InMemoryOutbox` over its four maps. The two batch methods share one loop
(`forEachDue`), the token-guarded methods share `transition` and the operator methods share
`operatorTransition`, as in the source. Random identifiers and clock readings are arguments; a batch
draws one token per visited message.
-/
namespace PersonalAssistant

open Lib

/-- A tenant and an identifier inside it. -/
abbrev Key := String × String

structure InMemoryOutbox (platform : Platform) where
  messagesByKey : Dict Key (OutboxMessage platform)
  keyByMessageId : Dict Key String
  keyByEventId : Dict Key String
  fingerprints : Dict Key Digest

namespace InMemoryOutbox

variable {platform : Platform}

def empty : InMemoryOutbox platform := ⟨.empty, .empty, .empty, .empty⟩

/-- `self._messages_by_key[key] = message`. -/
def setMessage (s : InMemoryOutbox platform) (key : Key) (m : OutboxMessage platform) :
    InMemoryOutbox platform :=
  { s with messagesByKey := s.messagesByKey.set key m }

@[simp] theorem messagesByKey_setMessage (s : InMemoryOutbox platform) (key : Key)
    (m : OutboxMessage platform) :
    (s.setMessage key m).messagesByKey = s.messagesByKey.set key m := rfl

abbrev Method (platform : Platform) (α : Type) := Op (InMemoryOutbox platform) PyError α

def require (ok : Bool) (error : PyError) : Except PyError Unit := if ok then .ok () else .error error

@[simp] theorem require_eq_ok {ok : Bool} {e : PyError} {u : Unit} :
    require ok e = .ok u ↔ ok = true := by
  unfold require; split_ifs <;> simp_all

theorem require_eq_error {ok : Bool} {e e' : PyError} :
    require ok e = .error e' ↔ ok = false ∧ e' = e := by
  unfold require; split_ifs <;> simp_all [eq_comm]

@[simp] theorem require_true (e : PyError) : require true e = .ok () := rfl

@[simp] theorem require_false (e : PyError) : require false e = .error e := rfl

/-- The document hashed by `add`. -/
def writeDocument (event : CloudEventFields) (nextAttemptAt : Option Instant)
    (messageId : Option String) : Json :=
  .obj [("event", CloudEvent.json event), ("message_id", CloudEvent.textJson messageId),
    ("next_attempt_at", CloudEvent.textJson (nextAttemptAt.map Instant.str))]

def conflict (message : String) (principal : Principal) : PyError :=
  .assistant .conflict message (some principal.tenantId)

/-- A message as `add` builds it, defaults included. -/
def newMessage (principal : Principal) (event : CloudEvent platform) (idempotencyKey : String)
    (nextAttemptAt : Option Instant) (id : String) (now : Instant) : OutboxMessage platform where
  id := id
  tenantId := principal.tenantId
  event := event
  idempotencyKey := idempotencyKey
  dispatchStatus := .pending
  claimToken := none
  claimOwner := none
  claimedUntil := none
  nextAttemptAt := nextAttemptAt
  attempts := 0
  createdAt := now
  sendingAt := none
  publishedAt := none
  lastError := none

/-- `canonical_utc` of an optional timestamp. -/
def canonicalOption (value : Option DateTime) (field : String) : Except PyError (Option Instant) :=
  match value with
  | none => .ok none
  | some d => (d.canonicalUtc field).map some

/-- Two different keys claim one identifier. -/
def takenByOther (index : Dict Key String) (key : Key) (idempotencyKey : String) : Bool :=
  match index.get? key with
  | none => false
  | some existing => existing ≠ idempotencyKey

theorem takenByOther_eq_false {index : Dict Key String} {k : Key} {key : String} :
    takenByOther index k key = false ↔ ∀ other, index.get? k = some other → other = key := by
  unfold takenByOther
  cases index.get? k with
  | none => simp
  | some other => simp

def add (principal : Principal) (event : CloudEvent platform) (idempotencyKey : String)
    (nextAttemptAt : Option DateTime) (messageId : Option String) (fresh : Uuid) (now : Instant) :
    Method platform (OutboxMessage platform) := do
  .ofExcept (requireTrustedPrincipal principal)
  .ofExcept (require (event.tenantId = principal.tenantId)
    (.assistant .permissionDenied "outbox tenant mismatch" (some principal.tenantId)))
  let nextAttemptAt ← .ofExcept (canonicalOption nextAttemptAt "next_attempt_at")
  let key := (principal.tenantId, idempotencyKey)
  let writeFingerprint :=
    platform.fingerprint (writeDocument event.toCloudEventFields nextAttemptAt messageId)
  let self ← .get
  match self.messagesByKey.get? key with
  | some existing =>
    match self.fingerprints.get? key with
    | none => .raise (.keyError idempotencyKey)
    | some stored =>
      if stored ≠ writeFingerprint then .raise (conflict "outbox idempotency conflict" principal)
      else pure existing
  | none =>
    let message ← .ofExcept (newMessage principal event idempotencyKey nextAttemptAt
      (messageId.getD ("out_" ++ fresh.hex)) now).modelValidate
    let messageKey := (principal.tenantId, message.id)
    let eventKey := (principal.tenantId, event.id)
    if takenByOther self.keyByMessageId messageKey idempotencyKey then
      .raise (conflict "outbox message id conflict" principal)
    else if takenByOther self.keyByEventId eventKey idempotencyKey then
      .raise (conflict "outbox event id conflict" principal)
    else
      .modify fun s =>
        { messagesByKey := s.messagesByKey.set key message
          keyByMessageId := s.keyByMessageId.set messageKey idempotencyKey
          keyByEventId := s.keyByEventId.set eventKey idempotencyKey
          fingerprints := s.fingerprints.set key writeFingerprint }
      pure message

/-! ## Batches -/

/-- The order in which a batch visits messages: by creation time, then identifier. -/
def visitedBefore (a b : Key × OutboxMessage platform) : Prop :=
  a.2.createdAt < b.2.createdAt ∨ (a.2.createdAt = b.2.createdAt ∧ a.2.id ≤ b.2.id)

instance : DecidableRel (visitedBefore : Key × OutboxMessage platform → _ → Prop) := fun _ _ =>
  inferInstanceAs (Decidable (_ ∨ _))

instance : IsTrans (Key × OutboxMessage platform) visitedBefore where
  trans a b c h₁ h₂ := by
    rcases h₁ with h₁ | ⟨h₁, h₁'⟩ <;> rcases h₂ with h₂ | ⟨h₂, h₂'⟩
    · exact .inl (h₁.trans h₂)
    · exact .inl (h₂ ▸ h₁)
    · exact .inl (h₁ ▸ h₂)
    · exact .inr ⟨h₁.trans h₂, h₁'.trans h₂'⟩

instance : Std.Total (visitedBefore : Key × OutboxMessage platform → _ → Prop) where
  total a b := by
    rcases lt_trichotomy a.2.createdAt b.2.createdAt with h | h | h
    · exact .inl (.inl h)
    · rcases le_total a.2.id b.2.id with h' | h'
      · exact .inl (.inr ⟨h, h'⟩)
      · exact .inr (.inr ⟨h.symm, h'⟩)
    · exact .inr (.inl h)

def candidates (s : InMemoryOutbox platform) : List (Key × OutboxMessage platform) :=
  s.messagesByKey.entries.insertionSort visitedBefore

/-- The loop of a batch method: update every due candidate until `limit` of them were. -/
def forEachDue (due : Key → OutboxMessage platform → Bool)
    (update : Key → OutboxMessage platform → Except PyError (OutboxMessage platform)) (limit : Int) :
    List (Key × OutboxMessage platform) → List (OutboxMessage platform) →
      Method platform (List (OutboxMessage platform))
  | [], done => pure done
  | (key, message) :: rest, done =>
    if due key message then do
      let updated ← .ofExcept (update key message)
      .modify fun s => s.setMessage key updated
      if limit ≤ ((done ++ [updated]).length : Int) then pure (done ++ [updated])
      else forEachDue due update limit rest (done ++ [updated])
    else forEachDue due update limit rest done

def requireLimit (limit : Int) : Except PyError Unit :=
  require (1 ≤ limit && limit ≤ MAX_CLAIM_LIMIT) (.valueError "limit must be between 1 and 1000")

def requireLease (leaseSeconds : Int) : Except PyError Unit :=
  require (1 ≤ leaseSeconds && leaseSeconds ≤ MAX_CLAIM_LEASE_SECONDS)
    (.valueError "lease_seconds must be between 1 and 86400")

/-- `owner.strip()` and the checks on it. -/
def normalizeOwner (owner : String) : Except PyError String := do
  require (strip owner ≠ "") (.valueError "owner must not be blank")
  require ((strip owner).length ≤ MAX_CLAIM_OWNER_LENGTH)
    (.valueError "owner must be at most 200 characters")
  require (isValidClaimOwner (strip owner)) (.valueError "owner contains unsupported characters")
  return strip owner

def matchesType (eventType : Option String) (m : OutboxMessage platform) : Bool :=
  match eventType with
  | none => true
  | some type => m.event.type = type

def isDueTime (now : Instant) : Option Instant → Bool
  | none => true
  | some t => t ≤ now

def isExpired (now : Instant) : Option Instant → Bool
  | none => false
  | some t => t ≤ now

/-- The messages `claim_due` does not `continue` over. -/
def claimable (principal : Principal) (now : Instant) (eventType : Option String) (key : Key)
    (m : OutboxMessage platform) : Bool :=
  key.1 = principal.tenantId && matchesType eventType m &&
    (m.dispatchStatus = .pending || (m.dispatchStatus = .claimed && isExpired now m.claimedUntil)) &&
    isDueTime now m.nextAttemptAt

/-- The copy `claim_due` stores; nothing validates it. -/
def claimedCopy (owner : String) (now : Instant) (leaseSeconds : Int) (tokens : Key → Uuid)
    (key : Key) (m : OutboxMessage platform) : Except PyError (OutboxMessage platform) := do
  let claimedUntil ← now.addSeconds leaseSeconds
  return { m with
    dispatchStatus := .claimed
    claimToken := some ("claim_" ++ (tokens key).hex)
    claimOwner := some owner
    claimedUntil := some claimedUntil }

def claimDue (principal : Principal) (now : DateTime) (limit : Int) (owner : String)
    (leaseSeconds : Int) (eventType : Option String) (tokens : Key → Uuid) :
    Method platform (List (OutboxMessage platform)) := do
  .ofExcept (requireTrustedPrincipal principal)
  let now ← .ofExcept (now.canonicalUtc "now")
  .ofExcept (requireLimit limit)
  .ofExcept (requireLease leaseSeconds)
  let owner ← .ofExcept (normalizeOwner owner)
  let self ← .get
  forEachDue (claimable principal now eventType) (claimedCopy owner now leaseSeconds tokens) limit
    self.candidates []

/-- The messages `sweep_expired_sending` does not `continue` over. -/
def sweepable (principal : Principal) (now : Instant) (eventType : Option String) (key : Key)
    (m : OutboxMessage platform) : Bool :=
  key.1 = principal.tenantId && matchesType eventType m && m.dispatchStatus = .sending &&
    isExpired now m.claimedUntil

/-- The fields every method clears when a claim ends. -/
def clearClaim (m : OutboxMessage platform) : OutboxMessage platform :=
  { m with claimToken := none, claimOwner := none, claimedUntil := none }

/-- The fields written when a send ends in an error. -/
def errorCopy (target : DeliveryStatus) (error : DeliveryError) (m : OutboxMessage platform) :
    OutboxMessage platform :=
  { clearClaim m with dispatchStatus := target, lastError := some error }

def sweepExpiredSending (principal : Principal) (now : DateTime) (error : DeliveryError) (limit : Int)
    (eventType : Option String) : Method platform (List (OutboxMessage platform)) := do
  .ofExcept (requireTrustedPrincipal principal)
  let now ← .ofExcept (now.canonicalUtc "now")
  .ofExcept (requireLimit limit)
  let self ← .get
  forEachDue (sweepable principal now eventType)
    (fun _ m => (errorCopy .uncertain error m).modelValidate) limit self.candidates []

/-! ## Transitions of one message -/

/-- The first message of the tenant with this identifier, in insertion order. -/
def find? (s : InMemoryOutbox platform) (principal : Principal) (messageId : String) :
    Option (Key × OutboxMessage platform) :=
  s.messagesByKey.entries.find? fun e => e.1.1 = principal.tenantId && e.2.id = messageId

def notFound (principal : Principal) : PyError :=
  .assistant .notFound "outbox message not found" (some principal.tenantId)

def invalidToken (principal : Principal) : PyError :=
  .assistant .permissionDenied "invalid outbox claim token" (some principal.tenantId)

/-- `_transition`: a worker holding the claim token moves its message. -/
def transition (principal : Principal) (messageId claimToken : String) (expected : DeliveryStatus)
    (updates : OutboxMessage platform → OutboxMessage platform) :
    Method platform (OutboxMessage platform) := do
  .ofExcept (requireTrustedPrincipal principal)
  .ofExcept (require (claimToken ≠ "") (invalidToken principal))
  let self ← .get
  match self.find? principal messageId with
  | none => .raise (notFound principal)
  | some (key, message) =>
    .ofExcept (require (message.claimToken = some claimToken) (invalidToken principal))
    .ofExcept (require (message.dispatchStatus = expected)
      (conflict "illegal outbox delivery transition" principal))
    let updated ← .ofExcept (updates message).modelValidate
    .modify fun s => s.setMessage key updated
    pure updated

/-- `_operator_transition`: an operator resolves an uncertain message. -/
def operatorTransition (principal : Principal) (messageId : String)
    (updates : OutboxMessage platform → OutboxMessage platform) :
    Method platform (OutboxMessage platform) := do
  .ofExcept (requireTrustedPrincipal principal)
  let self ← .get
  match self.find? principal messageId with
  | none => .raise (notFound principal)
  | some (key, message) =>
    .ofExcept (require (message.dispatchStatus = .uncertain)
      (conflict "outbox message is not uncertain" principal))
    let updated ← .ofExcept (updates message).modelValidate
    .modify fun s => s.setMessage key updated
    pure updated

def sendingCopy (startedAt : Instant) (m : OutboxMessage platform) : OutboxMessage platform :=
  { m with dispatchStatus := .sending, sendingAt := some startedAt, attempts := m.attempts + 1 }

def markSending (principal : Principal) (messageId claimToken : String) (startedAt : DateTime) :
    Method platform (OutboxMessage platform) := do
  let startedAt ← .ofExcept (startedAt.canonicalUtc "started_at")
  transition principal messageId claimToken .claimed (sendingCopy startedAt)

def markClaimFailed (principal : Principal) (messageId claimToken : String) (error : DeliveryError) :
    Method platform (OutboxMessage platform) :=
  transition principal messageId claimToken .claimed (errorCopy .failed error)

def publishedCopy (publishedAt : Instant) (m : OutboxMessage platform) : OutboxMessage platform :=
  { m with dispatchStatus := .published, publishedAt := some publishedAt, lastError := none }

def markPublished (principal : Principal) (messageId claimToken : String)
    (publishedAt : Option DateTime) (clock : Instant) : Method platform (OutboxMessage platform) := do
  let publishedAt ← .ofExcept ((publishedAt.getD (.ofInstant clock)).canonicalUtc "published_at")
  transition principal messageId claimToken .sending fun m => publishedCopy publishedAt (clearClaim m)

/-- `_terminal_error`. -/
def terminalError (target : DeliveryStatus) (principal : Principal) (messageId claimToken : String)
    (error : DeliveryError) : Method platform (OutboxMessage platform) :=
  transition principal messageId claimToken .sending (errorCopy target error)

def markFailed (principal : Principal) (messageId claimToken : String) (error : DeliveryError) :
    Method platform (OutboxMessage platform) :=
  terminalError .failed principal messageId claimToken error

def markUncertain (principal : Principal) (messageId claimToken : String) (error : DeliveryError) :
    Method platform (OutboxMessage platform) :=
  terminalError .uncertain principal messageId claimToken error

def releasedCopy (nextAttemptAt : Option Instant) (m : OutboxMessage platform) :
    OutboxMessage platform :=
  { clearClaim m with dispatchStatus := .pending, nextAttemptAt := nextAttemptAt }

def release (principal : Principal) (messageId claimToken : String)
    (nextAttemptAt : Option DateTime) : Method platform (OutboxMessage platform) := do
  let nextAttemptAt ← .ofExcept (canonicalOption nextAttemptAt "next_attempt_at")
  transition principal messageId claimToken .claimed (releasedCopy nextAttemptAt)

def rescheduledCopy (nextAttemptAt : Instant) (error : DeliveryError) (m : OutboxMessage platform) :
    OutboxMessage platform :=
  { clearClaim m with
    dispatchStatus := .pending
    nextAttemptAt := some nextAttemptAt
    sendingAt := none
    lastError := some error }

def reschedule (principal : Principal) (messageId claimToken : String) (nextAttemptAt : DateTime)
    (error : DeliveryError) : Method platform (OutboxMessage platform) := do
  let nextAttemptAt ← .ofExcept (nextAttemptAt.canonicalUtc "next_attempt_at")
  transition principal messageId claimToken .sending (rescheduledCopy nextAttemptAt error)

def resolveUncertainDelivered (principal : Principal) (messageId : String) (publishedAt : DateTime) :
    Method platform (OutboxMessage platform) := do
  let publishedAt ← .ofExcept (publishedAt.canonicalUtc "published_at")
  operatorTransition principal messageId (publishedCopy publishedAt)

def retryCopy (nextAttemptAt : Instant) (m : OutboxMessage platform) : OutboxMessage platform :=
  { m with
    dispatchStatus := .pending
    nextAttemptAt := some nextAttemptAt
    sendingAt := none
    publishedAt := none }

def resolveUncertainRetry (principal : Principal) (messageId : String) (nextAttemptAt : DateTime) :
    Method platform (OutboxMessage platform) := do
  let nextAttemptAt ← .ofExcept (nextAttemptAt.canonicalUtc "next_attempt_at")
  operatorTransition principal messageId (retryCopy nextAttemptAt)

def listForTenant (principal : Principal) : Method platform (List (OutboxMessage platform)) := do
  .ofExcept (requireTrustedPrincipal principal)
  let self ← .get
  return (self.messagesByKey.entries.filter fun e => e.1.1 = principal.tenantId).map Prod.snd

end InMemoryOutbox

end PersonalAssistant
