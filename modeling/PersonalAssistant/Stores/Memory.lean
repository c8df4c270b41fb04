import Mathlib.Data.List.Infix
import PersonalAssistant.Lib.Dict
import PersonalAssistant.Lib.Effect
import PersonalAssistant.Dto.Events

/-!
# The memory store

`TenantMemoryStore` keeps the records of all tenants in one map by their generated identifiers; reading
filters by tenant and user.
-/
namespace PersonalAssistant

open Lib

inductive MemoryKind where
  | episodic
  | semantic
  | procedural
deriving DecidableEq, Repr

structure MemoryRecord where
  id : String
  tenantId : String
  userId : Option String
  kind : MemoryKind
  text : String
  source : String
  confirmed : Bool
  createdAt : Instant
deriving DecidableEq

/-- `MemoryRecord(...)`: texts are stripped, then checked. -/
def MemoryRecord.create (principal : Principal) (kind : MemoryKind) (text source : String)
    (confirmed : Bool) (fresh : Uuid) (now : Instant) : Except PyError MemoryRecord := do
  requireNonempty (trim text)
  requireNonempty (trim source)
  return { id := "mem_" ++ fresh.hex, tenantId := principal.tenantId,
           userId := some principal.principalId, kind, text := trim text, source := trim source,
           confirmed, createdAt := now }

structure TenantMemoryStore where
  records : Dict String MemoryRecord

namespace TenantMemoryStore

def empty : TenantMemoryStore := ⟨.empty⟩

abbrev Method (α : Type) := Op TenantMemoryStore PyError α

def add (principal : Principal) (kind : MemoryKind) (text source : String) (confirmed : Bool)
    (fresh : Uuid) (now : Instant) : Method MemoryRecord := do
  .ofExcept (requireTrustedPrincipal principal)
  let record ← .ofExcept (MemoryRecord.create principal kind text source confirmed fresh now)
  .modify fun s => { records := s.records.set record.id record }
  pure record

/-- A record of the principal. -/
def isOwn (principal : Principal) (record : MemoryRecord) : Bool :=
  record.tenantId = principal.tenantId && record.userId = some principal.principalId

/-- The records `retrieve` does not `continue` over. -/
def isMatch (platform : Platform) (principal : Principal) (query : String) (kind : Option MemoryKind)
    (confirmedOnly : Bool) (record : MemoryRecord) : Bool :=
  isOwn principal record && kind.all (fun k => record.kind = k) && (!confirmedOnly || record.confirmed) &&
    (platform.casefold query = "" ||
      (platform.casefold query).toList <:+: (platform.casefold record.text).toList)

/-- `matches[:limit]`: a negative limit leaves out that many at the end. -/
def slice {α : Type} (xs : List α) (limit : Int) : List α :=
  if 0 ≤ limit then xs.take limit.toNat else xs.take (xs.length - (-limit).toNat)

def retrieve (platform : Platform) (principal : Principal) (query : String) (kind : Option MemoryKind)
    (confirmedOnly : Bool) (limit : Int) : Method (List MemoryRecord) := do
  .ofExcept (requireTrustedPrincipal principal)
  let self ← .get
  return slice (self.records.values.filter (isMatch platform principal query kind confirmedOnly)) limit

def listForTenant (principal : Principal) : Method (List MemoryRecord) := do
  .ofExcept (requireTrustedPrincipal principal)
  let self ← .get
  return self.records.values.filter (isOwn principal)

end TenantMemoryStore

end PersonalAssistant
