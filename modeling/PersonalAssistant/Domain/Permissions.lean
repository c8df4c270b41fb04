import PersonalAssistant.Lib.Text
import PersonalAssistant.Domain.Time

/-!
# Principals, permission tiers and approvals

`requirePermission` compares tiers; `requireApproval` additionally demands, from tier `P3` on, a
trusted grant that names the principal, action and resource and has not expired.
-/
namespace PersonalAssistant

open Lib

inductive PermissionTier where
  | P0 | P1 | P2 | P3 | P4 | P5 | P6
deriving DecidableEq, Repr

namespace PermissionTier

def rank : PermissionTier → Nat
  | P0 => 0 | P1 => 1 | P2 => 2 | P3 => 3 | P4 => 4 | P5 => 5 | P6 => 6

def allows (tier required : PermissionTier) : Bool := required.rank ≤ tier.rank

end PermissionTier

/-- An identity text as the model stores it: trimmed, not blank, of bounded length. -/
structure IdentityText (maxLength : Nat) where
  text : String
  trimmed : Trimmed text
  nonblank : strip text ≠ ""
  length_le : text.length ≤ maxLength
deriving DecidableEq

theorem IdentityText.ne {n : Nat} (t : IdentityText n) : t.text ≠ "" := by
  intro h
  exact t.nonblank (by rw [h]; rfl)

/-- The authenticated actor. `trusted` is whether a verified source marked it. -/
structure Principal where
  principal : IdentityText 200
  tenant : IdentityText 120
  permissionTier : PermissionTier
  trusted : Bool
deriving DecidableEq

namespace Principal

def principalId (p : Principal) : String := p.principal.text
def tenantId (p : Principal) : String := p.tenant.text

/-- `Principal.for_test`: a principal of a trusted test source. -/
def forTest (principal : IdentityText 200) (tenant : IdentityText 120) (tier : PermissionTier) :
    Principal := ⟨principal, tenant, tier, true⟩

end Principal

def requireTrustedPrincipal (principal : Principal) : Except PyError Unit :=
  if principal.trusted then .ok ()
  else .error (.assistant .authenticationRequired "principal must be derived from verified auth"
    (some principal.tenantId))

@[simp] theorem requireTrustedPrincipal_eq_ok {p : Principal} {u : Unit} :
    requireTrustedPrincipal p = .ok u ↔ p.trusted = true := by
  unfold requireTrustedPrincipal; split_ifs <;> simp_all

theorem requireTrustedPrincipal_of_trusted {p : Principal} (h : p.trusted = true) :
    requireTrustedPrincipal p = .ok () := requireTrustedPrincipal_eq_ok.mpr h

/-- A text field of a `PermissionRequest`: trimmed length within bounds, not blank. -/
def validRequestText (value : String) (maxLength : Nat) : Bool :=
  1 ≤ (trim value).length && (trim value).length ≤ maxLength && strip (trim value) ≠ ""

/-- `require_permission` for a request without a named permission. -/
def requirePermission (principal : Principal) (action resource : String)
    (requiredTier : PermissionTier) : Except PyError Unit :=
  if !(validRequestText action 120 && validRequestText resource 200) then
    .error (.validationError "PermissionRequest")
  else if !principal.trusted then
    .error (.assistant .permissionDenied "principal must be derived from verified auth"
      (some principal.tenantId))
  else if !principal.permissionTier.allows requiredTier then
    .error (.assistant .permissionDenied "principal tier is below the required tier"
      (some principal.tenantId))
  else .ok ()

/-- A trusted approval for one action on one resource. -/
structure ApprovalGrant where
  approvalId : String
  tenantId : String
  principalId : String
  action : String
  resource : String
  tier : PermissionTier
  approved : Bool
  expiresAt : Option Instant
  requestHash : Option String
  trusted : Bool
deriving DecidableEq

/-- The conditions `require_approval` collects as `approval_errors`. -/
def approvalErrors (principal : Principal) (requiredTier : PermissionTier) (approval : ApprovalGrant)
    (action resource : String) (now : Instant) : List String :=
  (if approval.trusted then [] else ["approval grant is not trusted"]) ++
  (if approval.approved then [] else ["approval grant is not approved"]) ++
  (if approval.tenantId = principal.tenantId then [] else ["approval tenant mismatch"]) ++
  (if approval.principalId = principal.principalId then [] else ["approval principal mismatch"]) ++
  (if approval.action = action then [] else ["approval action mismatch"]) ++
  (if approval.resource = resource then [] else ["approval resource mismatch"]) ++
  (if approval.tier.allows requiredTier then [] else ["approval tier too low"]) ++
  (match approval.expiresAt with
    | some expires => if expires ≤ now then ["approval expired"] else []
    | none => [])

/-- `require_approval` without a request hash, at wall clock `now`. -/
def requireApproval (principal : Principal) (tier : PermissionTier)
    (approval : Option ApprovalGrant) (action resource : String) (now : Instant) :
    Except PyError Unit := do
  requirePermission principal action resource tier
  if tier.rank < PermissionTier.P3.rank then
    return ()
  match approval with
  | none => .error (.assistant .permissionDenied
      "trusted approval grant required for P3+ action" (some principal.tenantId))
  | some grant =>
    if approvalErrors principal tier grant action resource now ≠ [] then
      .error (.assistant .permissionDenied "approval grant rejected" (some principal.tenantId))
    else .ok ()

end PersonalAssistant
