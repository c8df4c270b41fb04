import PersonalAssistant.Outbox.Machine

/-!
# The PostgreSQL outbox

`PostgresOutbox` over a table of rows. A row has the columns the statements filter on and a JSON payload
that the methods return; every statement patches both. The constraints are those of the migrations: the
three unique keys of a tenant and the `CHECK`s on error shape and state metadata. A statement that
violates a constraint, or a returned payload that fails validation, aborts its transaction and changes
nothing.

The payload is kept as the message it encodes: `payload || patch` replaces exactly the named fields.
-/
namespace PersonalAssistant

open Lib InMemoryOutbox

variable {platform : Platform}

/-- A row of `assistant_outbox`. -/
structure OutboxRow (platform : Platform) where
  tenantId : String
  idempotencyKey : String
  messageId : String
  eventId : String
  dispatchStatus : DeliveryStatus
  claimToken : Option String
  claimOwner : Option String
  claimedUntil : Option Instant
  nextAttemptAt : Option Instant
  attempts : Nat
  createdAt : Instant
  publishedAt : Option Instant
  eventPayload : CloudEvent platform
  fingerprint : Digest
  sendingAt : Option Instant
  lastErrorCategory : Option DeliveryErrorCategory
  lastErrorCode : Option DeliveryErrorCode
  lastErrorProviderCode : Option (Fin 10000)
  lastErrorAt : Option Instant
  payload : OutboxMessage platform

namespace OutboxRow

/-- `assistant_outbox_error_shape_check`. -/
def errorShapeCheck (r : OutboxRow platform) : Bool :=
  (r.lastErrorCategory.isNone && r.lastErrorCode.isNone && r.lastErrorProviderCode.isNone &&
      r.lastErrorAt.isNone) ||
    (r.lastErrorCategory.isSome && r.lastErrorCode.isSome && r.lastErrorAt.isSome)

/-- `assistant_outbox_state_metadata_check` of migration 0004. -/
def stateMetadataCheck (r : OutboxRow platform) : Bool :=
  (r.dispatchStatus = .pending && r.claimToken.isNone && r.claimOwner.isNone &&
      r.claimedUntil.isNone && r.sendingAt.isNone && r.publishedAt.isNone) ||
  (r.dispatchStatus = .claimed && r.claimToken.isSome && r.claimOwner.isSome &&
      r.claimedUntil.isSome && r.sendingAt.isNone && r.publishedAt.isNone) ||
  (r.dispatchStatus = .sending && r.claimToken.isSome && r.claimOwner.isSome &&
      r.claimedUntil.isSome && r.sendingAt.isSome && r.attempts > 0 && r.publishedAt.isNone) ||
  (r.dispatchStatus = .published && r.claimToken.isNone && r.claimOwner.isNone &&
      r.claimedUntil.isNone && r.publishedAt.isSome && r.lastErrorCategory.isNone &&
      r.lastErrorCode.isNone && r.lastErrorProviderCode.isNone && r.lastErrorAt.isNone) ||
  (r.dispatchStatus = .failed && r.claimToken.isNone && r.claimOwner.isNone &&
      r.claimedUntil.isNone && r.publishedAt.isNone && r.lastErrorCategory.isSome &&
      r.lastErrorCode.isSome && r.lastErrorAt.isSome &&
      ((r.attempts = 0 && r.sendingAt.isNone) || (r.attempts > 0 && r.sendingAt.isSome))) ||
  (r.dispatchStatus = .uncertain && r.claimToken.isNone && r.claimOwner.isNone &&
      r.claimedUntil.isNone && r.sendingAt.isSome && r.attempts > 0 && r.publishedAt.isNone &&
      r.lastErrorCategory.isSome && r.lastErrorCode.isSome && r.lastErrorAt.isSome)

def check (r : OutboxRow platform) : Bool := r.errorShapeCheck && r.stateMetadataCheck

/-- The error columns of an assignment list. -/
def withError (error : Option DeliveryError) (r : OutboxRow platform) : OutboxRow platform :=
  { r with
    lastErrorCategory := error.map DeliveryError.category
    lastErrorCode := error.map DeliveryError.code
    lastErrorProviderCode := error.bind DeliveryError.providerCode
    lastErrorAt := error.map DeliveryError.occurredAt }

/-- `claim_token = NULL, claim_owner = NULL, claimed_until = NULL`. -/
def withoutClaim (r : OutboxRow platform) : OutboxRow platform :=
  { r with claimToken := none, claimOwner := none, claimedUntil := none }

/-- `payload = payload || patch`. -/
def patch (f : OutboxMessage platform → OutboxMessage platform) (r : OutboxRow platform) :
    OutboxRow platform :=
  { r with payload := f r.payload }

end OutboxRow

abbrev OutboxTable (platform : Platform) := List (OutboxRow platform)

/-- Largest `INTEGER`. -/
def maxInteger : Nat := 2147483647

/-- A text the server stores: no NUL character. -/
def storable (s : String) : Bool := s.toList.all fun c => c ≠ '\x00'

theorem storable_append (a b : String) : storable (a ++ b) = (storable a && storable b) := by
  simp [storable]

theorem Uuid.storable_hex (u : Uuid) : storable u.hex = true := by
  have h := u.isHex
  simp only [isHexText, Bool.and_eq_true, List.all_eq_true] at h
  simp only [storable, List.all_eq_true, decide_eq_true_eq]
  rintro c hc rfl
  exact absurd (h.1 _ hc) (by decide)

mutual

/-- A document `jsonb` accepts. -/
def storableJson : Json → Bool
  | .str s => storable s
  | .arr items => storableItems items
  | .obj members => storableMembers members
  | _ => true

def storableItems : List Json → Bool
  | [] => true
  | j :: rest => storableJson j && storableItems rest

def storableMembers : List (String × Json) → Bool
  | [] => true
  | (k, v) :: rest => storable k && storableJson v && storableMembers rest

end

namespace PostgresOutbox

abbrev Method (platform : Platform) (α : Type) := Op (OutboxTable platform) PyError α

/-- Binding of text parameters. -/
def bindTexts (texts : List String) : Except PyError Unit :=
  require (texts.all storable) (.external "DataError")

/-- `_require_claim_token`. -/
def requireClaimToken (token : String) : Except PyError Unit :=
  require (strip token ≠ "") (.valueError "claim_token must be non-empty")

def requireClaimArguments (limit : Int) (owner : String) (leaseSeconds : Int) :
    Except PyError String := do
  require (1 ≤ limit && limit ≤ MAX_CLAIM_LIMIT) (.valueError "limit must be between 1 and 1000")
  require (strip owner ≠ "" && isValidClaimOwner (strip owner)) (.valueError
    "owner must be an ASCII worker identifier containing between 1 and 200 characters")
  require (1 ≤ leaseSeconds && leaseSeconds ≤ MAX_CLAIM_LEASE_SECONDS)
    (.valueError "lease_seconds must be between 1 and 86400")
  return strip owner

/-- The document hashed by `add`: the bare event when neither optional argument is given. -/
def writeDocument (event : CloudEventFields) (nextAttemptAt : Option Instant)
    (messageId : Option String) : Json :=
  if nextAttemptAt.isSome || messageId.isSome then
    InMemoryOutbox.writeDocument event nextAttemptAt messageId
  else CloudEvent.json event

/-- The row an `INSERT` of a validated message writes; unnamed columns are `NULL`. -/
def insertedRow (principal : Principal) (event : CloudEvent platform) (idempotencyKey : String)
    (fingerprint : Digest) (message : OutboxMessage platform) : OutboxRow platform where
  tenantId := principal.tenantId
  idempotencyKey := idempotencyKey
  messageId := message.id
  eventId := event.id
  dispatchStatus := message.dispatchStatus
  claimToken := message.claimToken
  claimOwner := message.claimOwner
  claimedUntil := message.claimedUntil
  nextAttemptAt := message.nextAttemptAt
  attempts := message.attempts
  createdAt := message.createdAt
  publishedAt := message.publishedAt
  eventPayload := event
  fingerprint := fingerprint
  sendingAt := none
  lastErrorCategory := none
  lastErrorCode := none
  lastErrorProviderCode := none
  lastErrorAt := none
  payload := message

/-- Two rows violate one of the unique keys. -/
def collides (a b : OutboxRow platform) : Bool :=
  a.tenantId = b.tenantId &&
    (a.idempotencyKey = b.idempotencyKey || a.messageId = b.messageId || a.eventId = b.eventId)

def add (principal : Principal) (event : CloudEvent platform) (idempotencyKey : String)
    (nextAttemptAt : Option DateTime) (messageId : Option String) (fresh : Uuid) (now : Instant) :
    Method platform (OutboxMessage platform) := do
  .ofExcept (requireTrustedPrincipal principal)
  .ofExcept (require (event.tenantId = principal.tenantId)
    (.assistant .permissionDenied "outbox tenant mismatch" (some principal.tenantId)))
  let nextAttemptAt ← .ofExcept (canonicalOption nextAttemptAt "next_attempt_at")
  let eventFingerprint :=
    platform.fingerprint (writeDocument event.toCloudEventFields nextAttemptAt messageId)
  let message ← .ofExcept (newMessage principal event idempotencyKey nextAttemptAt
    (messageId.getD ("out_" ++ fresh.hex)) now).modelValidate
  .ofExcept (bindTexts [principal.tenantId, idempotencyKey, message.id, event.id])
  .ofExcept (require (storableJson (CloudEvent.json event.toCloudEventFields)) (.external "DataError"))
  let row := insertedRow principal event idempotencyKey eventFingerprint message
  .ofExcept (require row.check (.integrityError "assistant_outbox"))
  let table ← .get
  if !table.any (collides row) then
    let message ← .ofExcept row.payload.modelValidate
    .modify fun t => t ++ [row]
    pure message
  else
    match table.find? fun r =>
        r.tenantId = principal.tenantId && r.idempotencyKey = idempotencyKey with
    | none => .raise (conflict "outbox durable id conflict" principal)
    | some existing =>
      if existing.fingerprint ≠ eventFingerprint then
        .raise (conflict "outbox idempotency conflict" principal)
      else .ofExcept existing.payload.modelValidate

/-! ## Batches -/

/-- `ORDER BY created_at, message_id`, in the C collation. -/
def orderedBefore (a b : OutboxRow platform) : Prop :=
  a.createdAt < b.createdAt ∨ (a.createdAt = b.createdAt ∧ a.messageId ≤ b.messageId)

instance : DecidableRel (orderedBefore : OutboxRow platform → _ → Prop) := fun _ _ =>
  inferInstanceAs (Decidable (_ ∨ _))

def sameKey (a b : OutboxRow platform) : Bool :=
  a.tenantId = b.tenantId && a.idempotencyKey = b.idempotencyKey

/-- `UPDATE … FROM (SELECT … ORDER BY … LIMIT …)`: patch the selected rows and return their payloads. -/
def updateSelected (selected : OutboxRow platform → Bool) (limit : Int)
    (assign : OutboxRow platform → OutboxRow platform) :
    Method platform (List (OutboxMessage platform)) := do
  let table ← .get
  let due := ((table.filter selected).insertionSort orderedBefore).take limit.toNat
  let updated := (table.filter fun r => due.any (sameKey r)).map assign
  .ofExcept (require (updated.all OutboxRow.check) (.integrityError "assistant_outbox"))
  let messages ← .ofExcept (updated.mapM fun r => r.payload.modelValidate)
  .modify fun t => t.map fun r => if due.any (sameKey r) then assign r else r
  pure messages

def matchesEventType (eventType : Option String) (r : OutboxRow platform) : Bool :=
  match eventType with
  | none => true
  | some type => r.eventPayload.type = type

/-- The `WHERE` of the claiming statement: an expired claim is due whatever its next attempt. -/
def selectedForClaim (principal : Principal) (now : Instant) (eventType : Option String)
    (r : OutboxRow platform) : Bool :=
  r.tenantId = principal.tenantId &&
    ((r.dispatchStatus = .pending && isDueTime now r.nextAttemptAt) ||
      (r.dispatchStatus = .claimed && isExpired now r.claimedUntil)) &&
    matchesEventType eventType r

def claimDue (principal : Principal) (now : DateTime) (limit : Int) (owner : String)
    (leaseSeconds : Int) (eventType : Option String) (tokens : Key → Uuid) :
    Method platform (List (OutboxMessage platform)) := do
  .ofExcept (requireTrustedPrincipal principal)
  let now ← .ofExcept (now.canonicalUtc "now")
  let owner ← .ofExcept (requireClaimArguments limit owner leaseSeconds)
  let claimedUntil ← .ofExcept (now.addSeconds leaseSeconds)
  .ofExcept (bindTexts ([principal.tenantId, owner] ++ eventType.toList))
  updateSelected (selectedForClaim principal now eventType) limit fun r =>
    let token := "claim_" ++ (tokens (r.tenantId, r.idempotencyKey)).hex
    ({ r with
      dispatchStatus := .claimed
      claimToken := some token
      claimOwner := some owner
      claimedUntil := some claimedUntil } : OutboxRow platform).patch fun m =>
        { m with
          dispatchStatus := .claimed
          claimToken := some token
          claimOwner := some owner
          claimedUntil := some claimedUntil }

def selectedForSweep (principal : Principal) (now : Instant) (eventType : Option String)
    (r : OutboxRow platform) : Bool :=
  r.tenantId = principal.tenantId && matchesEventType eventType r && r.dispatchStatus = .sending &&
    isExpired now r.claimedUntil

def sweepExpiredSending (principal : Principal) (now : DateTime) (error : DeliveryError) (limit : Int)
    (eventType : Option String) : Method platform (List (OutboxMessage platform)) := do
  .ofExcept (requireTrustedPrincipal principal)
  let now ← .ofExcept (now.canonicalUtc "now")
  .ofExcept (require (1 ≤ limit && limit ≤ MAX_CLAIM_LIMIT)
    (.valueError "limit must be between 1 and 1000"))
  .ofExcept (bindTexts ([principal.tenantId] ++ eventType.toList))
  updateSelected (selectedForSweep principal now eventType) limit fun r =>
    ({ r.withoutClaim with dispatchStatus := .uncertain }.withError (some error)).patch fun m =>
      { m with
        dispatchStatus := .uncertain
        claimToken := none
        claimOwner := none
        claimedUntil := none
        lastError := some error }

/-! ## Transitions of one row -/

/-- `UPDATE … WHERE tenant_id AND message_id AND more RETURNING payload`, and what is raised when no row
matched. -/
def updateRow (principal : Principal) (messageId : String) (more : OutboxRow platform → Bool)
    (assign : OutboxRow platform → OutboxRow platform) (refuse : Option (OutboxRow platform) → PyError) :
    Method platform (OutboxMessage platform) := do
  let table ← .get
  let found := fun r : OutboxRow platform =>
    r.tenantId = principal.tenantId && r.messageId = messageId
  match table.find? fun r => found r && more r with
  | some row =>
    .ofExcept (require ((assign row).attempts ≤ maxInteger)
      (.external "NumericValueOutOfRange"))
    .ofExcept (require (assign row).check (.integrityError "assistant_outbox"))
    let message ← .ofExcept (assign row).payload.modelValidate
    .modify fun t => t.map fun r => if found r && more r then assign r else r
    pure message
  | none => .raise (refuse (table.find? found))

/-- `dispatch_status = expected AND claim_token = token`. -/
def heldIn (expected : DeliveryStatus) (claimToken : String) (r : OutboxRow platform) : Bool :=
  r.dispatchStatus = expected && r.claimToken = some claimToken

/-- `_transition_delivery_row` on the outbox table. -/
def transitionDeliveryRow (principal : Principal) (messageId claimToken : String)
    (expected : DeliveryStatus) (assign : OutboxRow platform → OutboxRow platform) :
    Method platform (OutboxMessage platform) := do
  .ofExcept (bindTexts [principal.tenantId, messageId, claimToken])
  updateRow principal messageId (heldIn expected claimToken) assign fun existing =>
    match existing with
    | none => notFound principal
    | some row =>
      if row.claimToken ≠ some claimToken then invalidToken principal
      else conflict "illegal outbox message delivery transition" principal

def markSending (principal : Principal) (messageId claimToken : String) (startedAt : DateTime) :
    Method platform (OutboxMessage platform) := do
  .ofExcept (requireTrustedPrincipal principal)
  .ofExcept (requireClaimToken claimToken)
  let startedAt ← .ofExcept (startedAt.canonicalUtc "started_at")
  transitionDeliveryRow principal messageId claimToken .claimed fun r =>
    ({ r with
      dispatchStatus := .sending
      sendingAt := some startedAt
      attempts := r.attempts + 1 } : OutboxRow platform).patch fun m =>
        { m with
          dispatchStatus := .sending
          sendingAt := some startedAt
          attempts := r.attempts + 1 }

/-- The assignments that end a claim with an error. -/
def assignError (target : DeliveryStatus) (error : DeliveryError) (r : OutboxRow platform) :
    OutboxRow platform :=
  ({ r.withoutClaim with dispatchStatus := target }.withError (some error)).patch fun m =>
    { m with
      dispatchStatus := target
      claimToken := none
      claimOwner := none
      claimedUntil := none
      lastError := some error }

def markClaimFailed (principal : Principal) (messageId claimToken : String) (error : DeliveryError) :
    Method platform (OutboxMessage platform) := do
  .ofExcept (requireTrustedPrincipal principal)
  .ofExcept (requireClaimToken claimToken)
  transitionDeliveryRow principal messageId claimToken .claimed (assignError .failed error)

def markPublished (principal : Principal) (messageId claimToken : String)
    (publishedAt : Option DateTime) (clock : Instant) : Method platform (OutboxMessage platform) := do
  .ofExcept (requireTrustedPrincipal principal)
  .ofExcept (requireClaimToken claimToken)
  let publishedAt ← .ofExcept ((publishedAt.getD (.ofInstant clock)).canonicalUtc "published_at")
  transitionDeliveryRow principal messageId claimToken .sending fun r =>
    ({ r.withoutClaim with
      dispatchStatus := .published
      publishedAt := some publishedAt }.withError none).patch fun m =>
        { m with
          dispatchStatus := .published
          claimToken := none
          claimOwner := none
          claimedUntil := none
          publishedAt := some publishedAt
          lastError := none }

def release (principal : Principal) (messageId claimToken : String)
    (nextAttemptAt : Option DateTime) : Method platform (OutboxMessage platform) := do
  .ofExcept (requireTrustedPrincipal principal)
  .ofExcept (requireClaimToken claimToken)
  let nextAttemptAt ← .ofExcept (canonicalOption nextAttemptAt "next_attempt_at")
  transitionDeliveryRow principal messageId claimToken .claimed fun r =>
    ({ r.withoutClaim with
      dispatchStatus := .pending
      nextAttemptAt := nextAttemptAt
      sendingAt := none } : OutboxRow platform).patch fun m =>
        { m with
          dispatchStatus := .pending
          claimToken := none
          claimOwner := none
          claimedUntil := none
          nextAttemptAt := nextAttemptAt
          sendingAt := none }

def reschedule (principal : Principal) (messageId claimToken : String) (nextAttemptAt : DateTime)
    (error : DeliveryError) : Method platform (OutboxMessage platform) := do
  .ofExcept (requireTrustedPrincipal principal)
  .ofExcept (requireClaimToken claimToken)
  let nextAttemptAt ← .ofExcept (nextAttemptAt.canonicalUtc "next_attempt_at")
  transitionDeliveryRow principal messageId claimToken .sending fun r =>
    ({ r.withoutClaim with
      dispatchStatus := .pending
      nextAttemptAt := some nextAttemptAt
      sendingAt := none }.withError (some error)).patch fun m =>
        { m with
          dispatchStatus := .pending
          claimToken := none
          claimOwner := none
          claimedUntil := none
          nextAttemptAt := some nextAttemptAt
          sendingAt := none
          lastError := some error }

/-- `_mark_terminal`. -/
def markTerminal (target : DeliveryStatus) (principal : Principal) (messageId claimToken : String)
    (error : DeliveryError) : Method platform (OutboxMessage platform) := do
  .ofExcept (requireTrustedPrincipal principal)
  .ofExcept (requireClaimToken claimToken)
  transitionDeliveryRow principal messageId claimToken .sending (assignError target error)

def markFailed (principal : Principal) (messageId claimToken : String) (error : DeliveryError) :
    Method platform (OutboxMessage platform) :=
  markTerminal .failed principal messageId claimToken error

def markUncertain (principal : Principal) (messageId claimToken : String) (error : DeliveryError) :
    Method platform (OutboxMessage platform) :=
  markTerminal .uncertain principal messageId claimToken error

def isUncertain (r : OutboxRow platform) : Bool := r.dispatchStatus = .uncertain

/-- `_resolve_uncertain`. -/
def resolveUncertain (principal : Principal) (messageId : String)
    (assign : OutboxRow platform → OutboxRow platform) :
    Method platform (OutboxMessage platform) := do
  .ofExcept (requireTrustedPrincipal principal)
  .ofExcept (bindTexts [principal.tenantId, messageId])
  updateRow principal messageId isUncertain assign fun existing =>
    match existing with
    | none => notFound principal
    | some _ => conflict "outbox message is not uncertain" principal

def resolveUncertainDelivered (principal : Principal) (messageId : String) (publishedAt : DateTime) :
    Method platform (OutboxMessage platform) := do
  let publishedAt ← .ofExcept (publishedAt.canonicalUtc "published_at")
  resolveUncertain principal messageId fun r =>
    ({ r with
      dispatchStatus := .published
      publishedAt := some publishedAt }.withError none).patch fun m =>
        { m with dispatchStatus := .published, publishedAt := some publishedAt, lastError := none }

def resolveUncertainRetry (principal : Principal) (messageId : String) (nextAttemptAt : DateTime) :
    Method platform (OutboxMessage platform) := do
  let nextAttemptAt ← .ofExcept (nextAttemptAt.canonicalUtc "next_attempt_at")
  resolveUncertain principal messageId fun r =>
    ({ r with
      dispatchStatus := .pending
      nextAttemptAt := some nextAttemptAt
      sendingAt := none
      publishedAt := none } : OutboxRow platform).patch fun m =>
        { m with
          dispatchStatus := .pending
          nextAttemptAt := some nextAttemptAt
          sendingAt := none
          publishedAt := none }

def listForTenant (principal : Principal) : Method platform (List (OutboxMessage platform)) := do
  .ofExcept (requireTrustedPrincipal principal)
  .ofExcept (bindTexts [principal.tenantId])
  let table ← .get
  let rows := (table.filter fun r => r.tenantId = principal.tenantId).insertionSort orderedBefore
  .ofExcept (rows.mapM fun r => r.payload.modelValidate)

end PostgresOutbox

end PersonalAssistant
