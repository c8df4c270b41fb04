import PersonalAssistant.Outbox.InMemory

/-!
# Pending approvals

The approval record and its in-memory store. `approve` and `cancel` read the record, check its status
and write the new one; `create` is idempotent per principal, workflow kind and idempotency key.
-/
namespace PersonalAssistant

open Lib InMemoryOutbox

inductive PendingApprovalStatus where
  | pending
  | approved
  | cancelled
deriving DecidableEq, Repr

structure PendingApproval where
  approvalId : String
  tenantId : String
  principalId : String
  action : String
  resource : String
  tier : String
  workflowKind : String
  messageId : String
  sourceEventId : String
  conversationId : String
  channel : String
  recipient : String
  requestText : String
  requestNow : Instant
  timezone : String
  idempotencyKey : String
  payloadFingerprint : String
  status : PendingApprovalStatus
  createdAt : Instant
  updatedAt : Option Instant
deriving DecidableEq

/-- `PermissionTier(value)`. -/
def PermissionTier.parse (value : String) : Except PyError PermissionTier :=
  if value = "P0" then .ok .P0
  else if value = "P1" then .ok .P1
  else if value = "P2" then .ok .P2
  else if value = "P3" then .ok .P3
  else if value = "P4" then .ok .P4
  else if value = "P5" then .ok .P5
  else if value = "P6" then .ok .P6
  else .error (.valueError "not a valid PermissionTier")

namespace PendingApproval

/-- The document behind `_approval_hash`. -/
def document (a : PendingApproval) : Json :=
  .obj [("action", .str a.action), ("approval_id", .str a.approvalId), ("channel", .str a.channel),
    ("conversation_id", .str a.conversationId), ("idempotency_key", .str a.idempotencyKey),
    ("message_id", .str a.messageId), ("payload_fingerprint", .str a.payloadFingerprint),
    ("principal_id", .str a.principalId), ("recipient", .str a.recipient),
    ("request_text", .str a.requestText), ("resource", .str a.resource),
    ("source_event_id", .str a.sourceEventId), ("tenant_id", .str a.tenantId),
    ("tier", .str a.tier), ("timezone", .str a.timezone), ("workflow_kind", .str a.workflowKind)]

/-- `_approval_hash`. -/
def hash (platform : Platform) (a : PendingApproval) : Digest := platform.fingerprint a.document

/-- A copy with a new status. -/
def withStatus (a : PendingApproval) (status : PendingApprovalStatus) (now : Instant) :
    PendingApproval :=
  { a with status, updatedAt := some now }

@[simp] theorem withStatus_status (a : PendingApproval) (status : PendingApprovalStatus)
    (now : Instant) : (a.withStatus status now).status = status := rfl

/-- The grant `approve` issues. -/
def grant (platform : Platform) (principal : Principal) (tier : PermissionTier) (a : PendingApproval) :
    ApprovalGrant where
  approvalId := a.approvalId
  tenantId := principal.tenantId
  principalId := principal.principalId
  action := a.action
  resource := a.resource
  tier := tier
  approved := true
  expiresAt := none
  requestHash := some (a.hash platform).text
  trusted := true

end PendingApproval

def approvalNotFound (principal : Principal) : PyError :=
  .assistant .notFound "approval not found" (some principal.tenantId)

def approvalCancelled (principal : Principal) : PyError :=
  .assistant .permissionDenied "approval was cancelled" (some principal.tenantId)

def approvedNotCancellable (principal : Principal) : PyError :=
  conflict "approved approval cannot be cancelled" principal

/-- Tenant, principal, workflow kind and idempotency key. -/
abbrev ApprovalKey := String × String × String × String

structure InMemoryApprovalStore where
  approvalsById : Dict Key PendingApproval
  approvalIdByKey : Dict ApprovalKey String
  fingerprints : Dict Key Digest

namespace InMemoryApprovalStore

def empty : InMemoryApprovalStore := ⟨.empty, .empty, .empty⟩

abbrev Method (α : Type) := Op InMemoryApprovalStore PyError α

def create (platform : Platform) (principal : Principal) (approval : PendingApproval) :
    Method PendingApproval := do
  .ofExcept (requireTrustedPrincipal principal)
  .ofExcept (require
    (approval.tenantId = principal.tenantId && approval.principalId = principal.principalId)
    (.assistant .permissionDenied "approval principal mismatch" (some principal.tenantId)))
  let tier ← .ofExcept (PermissionTier.parse approval.tier)
  .ofExcept (require (PermissionTier.P3.rank ≤ tier.rank)
    (.assistant .validationFailed "approval requests are only valid for P3+ actions"
      (some principal.tenantId)))
  let idempotencyKey :=
    (principal.tenantId, principal.principalId, approval.workflowKind, approval.idempotencyKey)
  let approvalFingerprint := approval.hash platform
  let self ← .get
  match self.approvalIdByKey.get? idempotencyKey with
  | some existingId =>
    let existingKey := (principal.tenantId, existingId)
    match self.fingerprints.get? existingKey, self.approvalsById.get? existingKey with
    | some stored, some existing =>
      if stored ≠ approvalFingerprint then
        .raise (conflict "approval request idempotency conflict" principal)
      else pure existing
    | _, _ => .raise (.keyError existingId)
  | none =>
    let key := (principal.tenantId, approval.approvalId)
    .modify fun s =>
      { approvalsById := s.approvalsById.set key approval
        approvalIdByKey := s.approvalIdByKey.set idempotencyKey approval.approvalId
        fingerprints := s.fingerprints.set key approvalFingerprint }
    pure approval

def get (principal : Principal) (approvalId : String) : Method (Option PendingApproval) := do
  .ofExcept (requireTrustedPrincipal principal)
  let self ← .get
  match self.approvalsById.get? (principal.tenantId, approvalId) with
  | none => pure none
  | some approval =>
    if approval.principalId ≠ principal.principalId then pure none else pure (some approval)

def setApproval (s : InMemoryApprovalStore) (key : Key) (a : PendingApproval) :
    InMemoryApprovalStore :=
  { s with approvalsById := s.approvalsById.set key a }

/-- `get`, raising when the record is absent. -/
def require (principal : Principal) (approvalId : String) : Method PendingApproval := do
  match ← get principal approvalId with
  | none => .raise (approvalNotFound principal)
  | some approval => pure approval

def markApproved (principal : Principal) (approvalId : String) (now : Instant) :
    Method PendingApproval := do
  let approval ← require principal approvalId
  if approval.status ≠ .pending then return approval
  let updated := approval.withStatus .approved now
  .modify fun s => s.setApproval (principal.tenantId, approvalId) updated
  return updated

def approve (platform : Platform) (principal : Principal) (approvalId : String) (now : Instant) :
    Method ApprovalGrant := do
  let approval ← require principal approvalId
  if approval.status = .cancelled then .raise (approvalCancelled principal)
  let tier ← .ofExcept (PermissionTier.parse approval.tier)
  .ofExcept (requirePermission principal approval.action approval.resource tier)
  if approval.status = .pending then
    let approval ← markApproved principal approvalId now
    return approval.grant platform principal tier
  else return approval.grant platform principal tier

def cancel (principal : Principal) (approvalId : String) (now : Instant) :
    Method PendingApproval := do
  let approval ← require principal approvalId
  match approval.status with
  | .approved => .raise (approvedNotCancellable principal)
  | .cancelled => return approval
  | .pending =>
    let updated := approval.withStatus .cancelled now
    .modify fun s => s.setApproval (principal.tenantId, approvalId) updated
    return updated

def reject (principal : Principal) (approvalId : String) (now : Instant) :
    Method PendingApproval := cancel principal approvalId now

def listPending (principal : Principal) : Method (List PendingApproval) := do
  .ofExcept (requireTrustedPrincipal principal)
  let self ← .get
  return (self.approvalsById.entries.filter fun e =>
    e.1.1 = principal.tenantId && e.2.principalId = principal.principalId &&
      e.2.status = .pending).map Prod.snd

def listForTenant (principal : Principal) : Method (List PendingApproval) := do
  .ofExcept (requireTrustedPrincipal principal)
  let self ← .get
  return (self.approvalsById.entries.filter fun e =>
    e.1.1 = principal.tenantId && e.2.principalId = principal.principalId).map Prod.snd

end InMemoryApprovalStore

end PersonalAssistant
