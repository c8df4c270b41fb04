import PersonalAssistant.Lib.Json
import PersonalAssistant.Domain.Time

/-!
# Delivery state

The persisted delivery states and the sanitized failure metadata shared by outbox messages and
scheduled reminders.
-/
namespace PersonalAssistant

open Lib

def MAX_CLAIM_LIMIT : Int := 1000
def MAX_CLAIM_LEASE_SECONDS : Int := 86400
def MAX_CLAIM_OWNER_LENGTH : Nat := 200

inductive DeliveryStatus where
  | pending
  | claimed
  | sending
  | published
  | failed
  | uncertain
deriving DecidableEq, Repr

namespace DeliveryStatus

def value : DeliveryStatus → String
  | pending => "pending"
  | claimed => "claimed"
  | sending => "sending"
  | published => "published"
  | failed => "failed"
  | uncertain => "uncertain"

end DeliveryStatus

inductive DeliveryErrorCategory where
  | network
  | rateLimited
  | rejected
  | configuration
  | internal
  | unknown
deriving DecidableEq, Repr

inductive DeliveryErrorCode where
  | timeout
  | connectionFailed
  | rateLimited
  | providerUnavailable
  | authenticationFailed
  | requestRejected
  | invalidConfiguration
  | internalError
  | unknown
deriving DecidableEq, Repr

inductive NotificationOutcome where
  | success
  | knownTransient
  | permanent
  | unknownOutcome
deriving DecidableEq, Repr

/-- Failure metadata; provider codes are bounded by the field's own limits. -/
structure DeliveryError where
  category : DeliveryErrorCategory
  code : DeliveryErrorCode
  providerCode : Option (Fin 10000)
  occurredAt : Instant
deriving DecidableEq

def isClaimOwnerStart (c : Char) : Bool :=
  ('A' ≤ c && c ≤ 'Z') || ('a' ≤ c && c ≤ 'z') || ('0' ≤ c && c ≤ '9')

def isClaimOwnerChar (c : Char) : Bool :=
  isClaimOwnerStart c || c == '.' || c == '_' || c == ':' || c == '-'

/-- `[A-Za-z0-9][A-Za-z0-9._:-]{0,199}` matched against the whole text. -/
def isValidClaimOwner (value : String) : Bool :=
  match value.toList with
  | [] => false
  | c :: cs => isClaimOwnerStart c && cs.all isClaimOwnerChar && cs.length ≤ 199

end PersonalAssistant
