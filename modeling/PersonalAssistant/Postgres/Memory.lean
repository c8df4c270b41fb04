import PersonalAssistant.Postgres.Outbox
import PersonalAssistant.Stores.Memory

/-!
# The PostgreSQL memory store

`PostgresMemoryStore` over a table of rows with columns and a JSON payload, which is kept as the record it
encodes. `retrieve` folds the query and compares it with the lower-cased text of a row, `LOWER` of the
server taken as simple lower-casing, one character at a time.

The store works on any connection it is given. What a cursor does with the values of a statement decides
whether `retrieve` can be answered at all: its `%s IS NULL` has no cast, so a value sent apart from the
statement has no type there.
-/
namespace PersonalAssistant

open Lib InMemoryOutbox

namespace MemoryKind

def value : MemoryKind → String
  | episodic => "episodic"
  | semantic => "semantic"
  | procedural => "procedural"

end MemoryKind

namespace MemoryRecord

/-- `model_dump(mode="json")`. -/
def json (record : MemoryRecord) : Json :=
  .obj [("confirmed", .bool record.confirmed), ("created_at", .str record.createdAt.json),
    ("id", .str record.id), ("kind", .str record.kind.value), ("source", .str record.source),
    ("tenant_id", .str record.tenantId), ("text", .str record.text),
    ("user_id", (record.userId.map Json.str).getD .null)]

/-- `model_validate`: texts are stripped, then checked. -/
def modelValidate (record : MemoryRecord) : Except PyError MemoryRecord := do
  requireNonempty (trim record.text)
  requireNonempty (trim record.source)
  return { record with
    id := trim record.id
    tenantId := trim record.tenantId
    userId := record.userId.map trim
    text := trim record.text
    source := trim record.source }

end MemoryRecord

/-- A row of `assistant_memory_records`. -/
structure MemoryRow where
  tenantId : String
  userId : Option String
  memoryId : String
  kind : String
  text : String
  source : String
  confirmed : Bool
  createdAt : Instant
  fingerprint : Digest
  payload : MemoryRecord
deriving DecidableEq

abbrev MemoryTable := List MemoryRow

/-- Largest `BIGINT`. -/
def maxBigint : Int := 9223372036854775807

/-- Where a cursor puts the values of a statement. -/
inductive ParameterBinding
  /-- The default cursors of `psycopg`: each `%s` is a parameter of its own, a text or `None` without a type. -/
  | server
  /-- `psycopg.ClientCursor`: each `%s` is replaced by a literal. -/
  | client
deriving DecidableEq

/-- `LOWER(text)`. -/
def sqlLower (lowerChar : Char → Char) (text : String) : List Char := text.toList.map lowerChar

namespace PostgresMemoryStore

open PostgresOutbox

abbrev Method (α : Type) := Op MemoryTable PyError α

/-- The row an `INSERT` of a record writes. -/
def insertedRow (platform : Platform) (record : MemoryRecord) : MemoryRow where
  tenantId := record.tenantId
  userId := record.userId
  memoryId := record.id
  kind := record.kind.value
  text := record.text
  source := record.source
  confirmed := record.confirmed
  createdAt := record.createdAt
  fingerprint := platform.fingerprint record.json
  payload := record

/-- The primary key of a row. -/
def isRecord (tenantId memoryId : String) (r : MemoryRow) : Bool :=
  r.tenantId = tenantId && r.memoryId = memoryId

def save (platform : Platform) (record : MemoryRecord) (principal : Principal) : Method MemoryRecord := do
  .ofExcept (requireTrustedPrincipal principal)
  .ofExcept (require (record.tenantId = principal.tenantId)
    (.assistant .permissionDenied "memory tenant mismatch" (some principal.tenantId)))
  .ofExcept (require (record.userId.all fun user => user = principal.principalId)
    (.assistant .permissionDenied "memory user mismatch" (some principal.tenantId)))
  let record := { record with userId := some (record.userId.getD principal.principalId) }
  let row := insertedRow platform record
  .ofExcept (bindTexts ([row.tenantId, row.memoryId, row.kind, row.text, row.source] ++ row.userId.toList))
  .ofExcept (require (storableJson record.json) (.external "DataError"))
  let table ← .get
  match table.find? (isRecord principal.tenantId record.id) with
  | none =>
    let stored ← .ofExcept row.payload.modelValidate
    .modify fun t => t ++ [row]
    pure stored
  | some existing =>
    if existing.fingerprint ≠ row.fingerprint then
      .raise (.assistant .conflict "memory idempotency conflict" (some principal.tenantId))
    else .ofExcept existing.payload.modelValidate

def add (platform : Platform) (principal : Principal) (kind : MemoryKind) (text source : String)
    (confirmed : Bool) (fresh : Uuid) (now : Instant) : Method MemoryRecord := do
  let record ← .ofExcept (MemoryRecord.create principal kind text source confirmed fresh now)
  save platform record principal

/-- `POSITION(needle IN text) > 0`. -/
def contains (needle text : List Char) : Prop := needle <:+: text

instance (needle text : List Char) : Decidable (contains needle text) := inferInstanceAs (Decidable (_ <:+: _))

/-- The `WHERE` of `retrieve`, where `normalized` is the folded query. -/
def selected (lowerChar : Char → Char) (principal : Principal) (normalized : String)
    (kind : Option MemoryKind) (confirmedOnly : Bool) (r : MemoryRow) : Bool :=
  r.tenantId = principal.tenantId && r.userId = some principal.principalId &&
    kind.all (fun k => r.kind = k.value) && (!confirmedOnly || r.confirmed) &&
    (normalized = "" || contains (sqlLower lowerChar normalized) (sqlLower lowerChar r.text))

/-- `ORDER BY created_at, memory_id`, in the C collation. -/
def orderedBefore (a b : MemoryRow) : Prop :=
  a.createdAt < b.createdAt ∨ (a.createdAt = b.createdAt ∧ a.memoryId ≤ b.memoryId)

instance : DecidableRel orderedBefore := fun _ _ => inferInstanceAs (Decidable (_ ∨ _))

def retrieve (binding : ParameterBinding) (platform : Platform) (lowerChar : Char → Char)
    (principal : Principal) (query : String) (kind : Option MemoryKind) (confirmedOnly : Bool) (limit : Int) :
    Method (List MemoryRecord) := do
  .ofExcept (requireTrustedPrincipal principal)
  let normalized := platform.casefold query
  .ofExcept (bindTexts [principal.tenantId, principal.principalId, normalized])
  -- the server cannot type the parameter of `%s IS NULL`, which stands alone
  .ofExcept (require (binding = .client) (.external "IndeterminateDatatype"))
  .ofExcept (require (0 ≤ limit) (.external "InvalidRowCountInLimitClause"))
  .ofExcept (require (limit ≤ maxBigint) (.external "NumericValueOutOfRange"))
  let table ← .get
  let rows := (table.filter (selected lowerChar principal normalized kind confirmedOnly)).insertionSort
    orderedBefore
  .ofExcept ((rows.take limit.toNat).mapM fun r => r.payload.modelValidate)

end PostgresMemoryStore

end PersonalAssistant
