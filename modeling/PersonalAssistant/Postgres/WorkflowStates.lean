import PersonalAssistant.Lib.Program
import PersonalAssistant.Postgres.Outbox
import PersonalAssistant.Stores.WorkflowStates

/-!
# The PostgreSQL workflow-state store

`PostgresWorkflowStateStore` as programs over SQL statements. A method opens a transaction, issues its
statements, and commits, or rolls back when anything raised. The table has the primary key
`(tenant_id, idempotency_key)` and the unique key `(tenant_id, workflow_id)`.

`perform` is the meaning of the statements when one caller at a time uses the table.
-/
namespace PersonalAssistant

open Lib InMemoryOutbox

/-- The texts of a key as statement parameters. -/
def bindable (key : Key) : Bool := storable key.1 && storable key.2

/-- A row of `assistant_workflow_states`. -/
structure WorkflowRow where
  tenantId : String
  idempotencyKey : String
  workflowId : String
  workflowType : String
  status : WorkflowStatus
  step : String
  createdAt : Instant
  updatedAt : Instant
  payloadFingerprint : Option String
  fingerprint : Digest
  payload : WorkflowState

namespace WorkflowRow

def key (r : WorkflowRow) : Key := (r.tenantId, r.idempotencyKey)

/-- The row an `INSERT` of a state writes. -/
def ofState (platform : Platform) (principal : Principal) (state : WorkflowState) : WorkflowRow where
  tenantId := principal.tenantId
  idempotencyKey := state.idempotencyKey
  workflowId := state.workflowId
  workflowType := state.workflowType
  status := state.status
  step := state.step
  createdAt := state.createdAt
  updatedAt := state.updatedAt
  payloadFingerprint := state.payloadFingerprint
  fingerprint := platform.fingerprint state.json
  payload := state

/-- Columns and document are texts the server stores. -/
def storable (r : WorkflowRow) : Bool := bindable r.key && storableJson r.payload.json

/-- `workflow_id`, `workflow_type` and `payload_fingerprint` are those of the excluded row. -/
def sameIdentity (r excluded : WorkflowRow) : Bool :=
  r.workflowId = excluded.workflowId && r.workflowType = excluded.workflowType &&
    r.payloadFingerprint = excluded.payloadFingerprint

/-- The `SET` list of the upsert. -/
def overwritten (r excluded : WorkflowRow) : WorkflowRow :=
  { r with
    status := excluded.status
    step := excluded.step
    updatedAt := excluded.updatedAt
    fingerprint := excluded.fingerprint
    payload := excluded.payload }

/-- The `SET` list of a resumed registration. -/
def resumedAs (r : WorkflowRow) (resumed : WorkflowState) (fingerprint : Digest) : WorkflowRow :=
  { r with
    status := resumed.status
    updatedAt := resumed.updatedAt
    fingerprint := fingerprint
    payload := resumed }

/-- The `WHERE` of a resumed registration. -/
def awaits (r : WorkflowRow) (step : String) (payloadFingerprint : Option String) : Bool :=
  r.status = .waitingApproval && r.step = step && r.payloadFingerprint = payloadFingerprint

end WorkflowRow

/-! ## Statements -/

inductive WorkflowStatement where
  /-- `INSERT … ON CONFLICT (tenant_id, idempotency_key) DO NOTHING RETURNING payload`. -/
  | insert (row : WorkflowRow)
  | selectForUpdate (key : Key)
  | select (key : Key)
  /-- The `UPDATE` of a resumed registration. -/
  | resume (key : Key) (resumed : WorkflowState) (fingerprint : Digest) (step : String)
      (payloadFingerprint : Option String)
  /-- `INSERT … ON CONFLICT (tenant_id, idempotency_key) DO UPDATE … RETURNING payload`. Whether the
  `SELECT` before it found a row does not change the statement; it is noted for the account of
  concurrent runs. -/
  | insertOrUpdate (row : WorkflowRow) (found : Bool)
  | commit
  | rollback
  | clock

namespace WorkflowStatement

abbrev Resp : WorkflowStatement → Type
  | insert _ => Except PyError (Option WorkflowState)
  | selectForUpdate _ => Except PyError (Option WorkflowRow)
  | select _ => Except PyError (Option WorkflowRow)
  | resume .. => Except PyError (Option WorkflowState)
  | insertOrUpdate .. => Except PyError (Option WorkflowState)
  | commit => Except PyError Unit
  | rollback => Unit
  | clock => Instant

end WorkflowStatement

abbrev workflowStatements : Signature := ⟨WorkflowStatement, WorkflowStatement.Resp⟩

namespace PostgresWorkflowStateStore

open Program

abbrev Session (α : Type) := Program workflowStatements PyError α

def insert (row : WorkflowRow) : Session (Option WorkflowState) := do
  let inserted ← perform (S := workflowStatements) (.insert row)
  ofExcept inserted

def selectForUpdate (key : Key) : Session (Option WorkflowRow) := do
  let row ← perform (S := workflowStatements) (.selectForUpdate key)
  ofExcept row

def select (key : Key) : Session (Option WorkflowRow) := do
  let row ← perform (S := workflowStatements) (.select key)
  ofExcept row

def resume (key : Key) (resumed : WorkflowState) (fingerprint : Digest) (step : String)
    (payloadFingerprint : Option String) : Session (Option WorkflowState) := do
  let saved ← perform (S := workflowStatements)
    (.resume key resumed fingerprint step payloadFingerprint)
  ofExcept saved

def insertOrUpdate (row : WorkflowRow) (found : Bool) : Session (Option WorkflowState) := do
  let saved ← perform (S := workflowStatements) (.insertOrUpdate row found)
  ofExcept saved

def clock : Session Instant := perform (S := workflowStatements) .clock

/-- `with self._db.cursor()`: commit when the body ends, roll back when it raises. -/
def transaction {α : Type} (body : Session α) : Session α := do
  let outcome ← (body >>= fun a => pure (Except.ok a)).handle fun e => pure (.error e)
  match outcome with
  | .ok a =>
    let committed ← perform (S := workflowStatements) .commit
    ofExcept committed
    return a
  | .error e =>
    let _ ← perform (S := workflowStatements) .rollback
    raise e

def identityConflict (principal : Principal) : PyError :=
  conflict "workflow identity is immutable" principal

/-- `register_or_replay` behind its first statement: the key is taken. -/
def replay (platform : Platform) (principal : Principal) (state : WorkflowState)
    (resumeFromStep : Option String) : Session WorkflowStateRegistration := do
  let key := (principal.tenantId, state.idempotencyKey)
  match ← selectForUpdate key with
  | none => raise (.assistant .internalError "workflow registration disappeared during replay"
      (some principal.tenantId))
  | some existing =>
    let persisted := existing.payload
    ofExcept (require (existing.payloadFingerprint = state.payloadFingerprint)
      (.reminderIdempotencyConflict principal.tenantId state.idempotencyKey))
    ofExcept (require (persisted.workflowType = state.workflowType) (identityConflict principal))
    match resumeFromStep with
    | some step =>
      if persisted.status = .waitingApproval ∧ persisted.step = step then
        let resumed := persisted.transition .running none [] (← clock)
        match ← resume key resumed (platform.fingerprint resumed.json) step
            state.payloadFingerprint with
        | none => raise (conflict "workflow resume was not acquired" principal)
        | some saved => return ⟨saved, false, true⟩
      else return ⟨persisted, true, false⟩
    | none => return ⟨persisted, true, false⟩

def registerOrReplay (platform : Platform) (principal : Principal) (state : WorkflowState)
    (resumeFromStep : Option String) : Session WorkflowStateRegistration := do
  ofExcept (requireTrustedPrincipal principal)
  ofExcept (InMemoryWorkflowStateStore.requireMatchingTenant principal state)
  ofExcept (require state.payloadFingerprint.isSome
    (.valueError "payload_fingerprint is required for workflow registration"))
  transaction do
    match ← insert (.ofState platform principal state) with
    | some inserted => return ⟨inserted, false, false⟩
    | none => replay platform principal state resumeFromStep

/-- The `INSERT … DO UPDATE` of an upsert and its answer. -/
def write (platform : Platform) (principal : Principal) (state : WorkflowState) (found : Bool) :
    Session WorkflowState := do
  match ← insertOrUpdate (.ofState platform principal state) found with
  | none => raise (identityConflict principal)
  | some saved => return saved

def upsert (platform : Platform) (principal : Principal) (state : WorkflowState) :
    Session WorkflowState := do
  ofExcept (requireTrustedPrincipal principal)
  ofExcept (InMemoryWorkflowStateStore.requireMatchingTenant principal state)
  transaction do
    match ← selectForUpdate (principal.tenantId, state.idempotencyKey) with
    | none => write platform principal state false
    | some existing =>
      let persisted := existing.payload
      ofExcept (require (existing.payloadFingerprint = state.payloadFingerprint)
        (.reminderIdempotencyConflict principal.tenantId state.idempotencyKey))
      ofExcept (require (persisted.workflowId = state.workflowId &&
        persisted.workflowType = state.workflowType) (identityConflict principal))
      if existing.status.isTerminal then
        ofExcept (require (existing.fingerprint = platform.fingerprint state.json)
          (conflict "terminal workflow state is immutable" principal))
        return persisted
      else write platform principal state true

def getByIdempotencyKey (principal : Principal) (idempotencyKey : String) :
    Session (Option WorkflowState) := do
  ofExcept (requireTrustedPrincipal principal)
  transaction do
    let row ← select (principal.tenantId, idempotencyKey)
    return row.map WorkflowRow.payload

end PostgresWorkflowStateStore

/-! ## One caller at a time -/

abbrev WorkflowTable := Dict Key WorkflowRow

/-- Another row of the tenant has the workflow identifier. -/
def WorkflowTable.clashes (t : WorkflowTable) (row : WorkflowRow) : Bool :=
  t.entries.any fun e => e.1.1 = row.tenantId && e.2.workflowId = row.workflowId

/-- What is committed, and what the open transaction sees. -/
structure WorkflowConnection where
  committed : WorkflowTable
  working : WorkflowTable

namespace WorkflowConnection

def write (c : WorkflowConnection) (row : WorkflowRow) : WorkflowConnection :=
  { c with working := c.working.set row.key row }

/-- A row whose key is new; the unique key on the identifier may reject it. -/
def insertNew (c : WorkflowConnection) (row : WorkflowRow) :
    Except PyError (Option WorkflowState) × WorkflowConnection :=
  if WorkflowTable.clashes c.working row then
    (.error (.integrityError "assistant_workflow_states"), c)
  else (.ok (some row.payload), c.write row)

/-- The meaning of the statements, at clock reading `now`. -/
def perform (now : Instant) : (statement : WorkflowStatement) → WorkflowConnection →
    statement.Resp × WorkflowConnection
  | .insert row, c =>
    if !row.storable then (.error (.external "DataError"), c)
    else match c.working.get? row.key with
    | some _ => (.ok none, c)
    | none => c.insertNew row
  | .selectForUpdate key, c =>
    if !bindable key then (.error (.external "DataError"), c)
    else (.ok (c.working.get? key), c)
  | .select key, c =>
    if !bindable key then (.error (.external "DataError"), c)
    else (.ok (c.working.get? key), c)
  | .resume key resumed fingerprint step payloadFingerprint, c =>
    match c.working.get? key with
    | none => (.ok none, c)
    | some row =>
      if row.awaits step payloadFingerprint then
        (.ok (some resumed), { c with working := c.working.set key (row.resumedAs resumed fingerprint) })
      else (.ok none, c)
  | .insertOrUpdate row _, c =>
    if !row.storable then (.error (.external "DataError"), c)
    else match c.working.get? row.key with
    | some existing =>
      if existing.sameIdentity row then
        (.ok (some row.payload), { c with working := c.working.set row.key (existing.overwritten row) })
      else (.ok none, c)
    | none => c.insertNew row
  | .commit, c => (.ok (), { c with committed := c.working })
  | .rollback, c => ((), { c with working := c.committed })
  | .clock, c => (now, c)

end WorkflowConnection

end PersonalAssistant
