import PersonalAssistant.Outbox.InMemory

/-!
# The workflow-state store

`registerOrReplay` elects one executor per idempotency key; `upsert` overwrites a state that is not
terminal. Identity and payload fingerprint of a stored state never change.
-/
namespace PersonalAssistant

open Lib InMemoryOutbox

inductive WorkflowStatus where
  | pending
  | running
  | waitingApproval
  | completed
  | failed
deriving DecidableEq, Repr

namespace WorkflowStatus

def value : WorkflowStatus → String
  | pending => "pending"
  | running => "running"
  | waitingApproval => "waiting_approval"
  | completed => "completed"
  | failed => "failed"

def isTerminal : WorkflowStatus → Bool
  | completed | failed => true
  | _ => false

end WorkflowStatus

/-- A state whose `data` is a JSON document. Two of them are the same when their dumps are, which is what the
stores compare. -/
structure WorkflowState where
  workflowId : String
  tenantId : String
  workflowType : String
  status : WorkflowStatus
  step : String
  idempotencyKey : String
  payloadFingerprint : Option String
  data : Members
  createdAt : Instant
  updatedAt : Instant

namespace WorkflowState

/-- `merged = dict(self.data); merged.update(data)`. -/
def mergeData (data updates : Members) : Members :=
  updates.foldl (fun acc e => insertMember e.1 e.2 acc) data

/-- `state.transition(...)` at clock reading `now`. An empty step counts as none. -/
def transition (s : WorkflowState) (status : WorkflowStatus) (step : Option String) (data : Members)
    (now : Instant) : WorkflowState :=
  { s with status, step := (step.filter (· ≠ "")).getD s.step, data := mergeData s.data data, updatedAt := now }

/-- `state.model_dump(mode="json")`. -/
def json (s : WorkflowState) : Json :=
  .obj [("created_at", .str s.createdAt.json), ("data", .obj s.data),
    ("idempotency_key", .str s.idempotencyKey),
    ("payload_fingerprint", CloudEvent.textJson s.payloadFingerprint),
    ("status", .str s.status.value), ("step", .str s.step), ("tenant_id", .str s.tenantId),
    ("updated_at", .str s.updatedAt.json), ("workflow_id", .str s.workflowId),
    ("workflow_type", .str s.workflowType)]

end WorkflowState

structure WorkflowStateRegistration where
  state : WorkflowState
  replayed : Bool
  resumed : Bool

structure InMemoryWorkflowStateStore where
  statesByKey : Dict Key WorkflowState
  keyByWorkflowId : Dict Key String

namespace InMemoryWorkflowStateStore

def empty : InMemoryWorkflowStateStore := ⟨.empty, .empty⟩

/-- `self._states_by_key[key] = state`. -/
def setState (s : InMemoryWorkflowStateStore) (key : Key) (state : WorkflowState) :
    InMemoryWorkflowStateStore :=
  { s with statesByKey := s.statesByKey.set key state }

abbrev Method (α : Type) := Op InMemoryWorkflowStateStore PyError α

def requireMatchingTenant (principal : Principal) (state : WorkflowState) : Except PyError Unit :=
  require (state.tenantId = principal.tenantId)
    (.assistant .permissionDenied "workflow tenant mismatch" (some principal.tenantId))

def raiseIfPayloadConflicts (principal : Principal) (existing candidate : WorkflowState) :
    Except PyError Unit :=
  require (existing.payloadFingerprint = candidate.payloadFingerprint)
    (.reminderIdempotencyConflict principal.tenantId existing.idempotencyKey)

/-- The state a registration resumes: waiting for approval at the requested step. -/
def resumable (existing : WorkflowState) (resumeFromStep : Option String) : Bool :=
  resumeFromStep.isSome && existing.status = .waitingApproval && resumeFromStep = some existing.step

def registerOrReplay (principal : Principal) (state : WorkflowState) (resumeFromStep : Option String)
    (now : Instant) : Method WorkflowStateRegistration := do
  .ofExcept (requireTrustedPrincipal principal)
  .ofExcept (requireMatchingTenant principal state)
  .ofExcept (require state.payloadFingerprint.isSome
    (.valueError "payload_fingerprint is required for workflow registration"))
  let key := (principal.tenantId, state.idempotencyKey)
  let workflowIdKey := (principal.tenantId, state.workflowId)
  let self ← .get
  match self.statesByKey.get? key with
  | some existing =>
    .ofExcept (raiseIfPayloadConflicts principal existing state)
    .ofExcept (require (existing.workflowType = state.workflowType)
      (conflict "workflow identity is immutable" principal))
    if resumable existing resumeFromStep then
      let resumed := existing.transition .running none [] now
      .modify fun s => s.setState key resumed
      pure ⟨resumed, false, true⟩
    else pure ⟨existing, true, false⟩
  | none =>
    if takenByOther self.keyByWorkflowId workflowIdKey state.idempotencyKey then
      .raise (conflict "workflow identity is immutable" principal)
    else
      .modify fun s =>
        { statesByKey := s.statesByKey.set key state
          keyByWorkflowId := s.keyByWorkflowId.set workflowIdKey state.idempotencyKey }
      pure ⟨state, false, false⟩

/-- The checks of `upsert` against the stored state of the key. -/
def requireReplaceable (platform : Platform) (principal : Principal) (existing state : WorkflowState) :
    Except PyError Unit := do
  require (existing.workflowId = state.workflowId && existing.workflowType = state.workflowType)
    (conflict "workflow identity is immutable" principal)
  raiseIfPayloadConflicts principal existing state
  require (!(existing.status.isTerminal && (state.status ≠ existing.status ||
      platform.fingerprint state.json ≠ platform.fingerprint existing.json)))
    (conflict "terminal workflow state is immutable" principal)

def upsert (platform : Platform) (principal : Principal) (state : WorkflowState) :
    Method WorkflowState := do
  .ofExcept (requireTrustedPrincipal principal)
  .ofExcept (requireMatchingTenant principal state)
  let key := (principal.tenantId, state.idempotencyKey)
  let workflowIdKey := (principal.tenantId, state.workflowId)
  let self ← .get
  .ofExcept (require (!takenByOther self.keyByWorkflowId workflowIdKey state.idempotencyKey)
    (conflict "workflow identity is immutable" principal))
  .ofExcept (match self.statesByKey.get? key with
    | some existing => requireReplaceable platform principal existing state
    | none => .ok ())
  .modify fun s =>
    { statesByKey := s.statesByKey.set key state
      keyByWorkflowId := s.keyByWorkflowId.set workflowIdKey state.idempotencyKey }
  pure state

def getByIdempotencyKey (principal : Principal) (idempotencyKey : String) :
    Method (Option WorkflowState) := do
  .ofExcept (requireTrustedPrincipal principal)
  let self ← .get
  return self.statesByKey.get? (principal.tenantId, idempotencyKey)

def listForTenant (principal : Principal) : Method (List WorkflowState) := do
  .ofExcept (requireTrustedPrincipal principal)
  let self ← .get
  return (self.statesByKey.entries.filter fun e => e.1.1 = principal.tenantId).map Prod.snd

/-! ## What the methods can do -/

variable {s s' : InMemoryWorkflowStateStore} {principal : Principal} {state : WorkflowState}

/-- `register_or_replay` raised without writing, replayed the stored state, resumed it, or stored a
fresh one. -/
theorem registerOrReplay_cases {resumeFromStep : Option String} {now : Instant}
    {r : Except PyError WorkflowStateRegistration}
    (h : registerOrReplay principal state resumeFromStep now s = (r, s')) :
    (∃ e, r = .error e ∧ s' = s) ∨
      principal.trusted = true ∧ state.tenantId = principal.tenantId ∧
      ((∃ existing, s.statesByKey.get? (principal.tenantId, state.idempotencyKey) = some existing ∧
          existing.payloadFingerprint = state.payloadFingerprint ∧
          existing.workflowType = state.workflowType ∧
          ((resumable existing resumeFromStep = false ∧ r = .ok ⟨existing, true, false⟩ ∧ s' = s) ∨
            (resumable existing resumeFromStep = true ∧
              r = .ok ⟨existing.transition .running none [] now, false, true⟩ ∧
              s' = s.setState (principal.tenantId, state.idempotencyKey)
                (existing.transition .running none [] now)))) ∨
        (s.statesByKey.get? (principal.tenantId, state.idempotencyKey) = none ∧
          takenByOther s.keyByWorkflowId (principal.tenantId, state.workflowId)
            state.idempotencyKey = false ∧
          r = .ok ⟨state, false, false⟩ ∧
          s' = {
            statesByKey := s.statesByKey.set (principal.tenantId, state.idempotencyKey) state
            keyByWorkflowId := s.keyByWorkflowId.set (principal.tenantId, state.workflowId)
              state.idempotencyKey })) := by
  unfold registerOrReplay at h
  rcases Op.ofExcept_bind_cases h with ⟨e, -, ho⟩ | ⟨_, htr, h⟩
  · cases ho; exact .inl ⟨e, rfl, rfl⟩
  rcases Op.ofExcept_bind_cases h with ⟨e, -, ho⟩ | ⟨_, hten, h⟩
  · cases ho; exact .inl ⟨e, rfl, rfl⟩
  rcases Op.ofExcept_bind_cases h with ⟨e, -, ho⟩ | ⟨_, -, h⟩
  · cases ho; exact .inl ⟨e, rfl, rfl⟩
  have htr := requireTrustedPrincipal_eq_ok.mp htr
  have hten : state.tenantId = principal.tenantId := by
    simpa [requireMatchingTenant, require] using hten
  rw [Op.get_bind] at h
  cases hk : s.statesByKey.get? (principal.tenantId, state.idempotencyKey) with
  | some existing =>
    simp only [hk] at h
    rcases Op.ofExcept_bind_cases h with ⟨e, -, ho⟩ | ⟨_, hp, h⟩
    · cases ho; exact .inl ⟨e, rfl, rfl⟩
    rcases Op.ofExcept_bind_cases h with ⟨e, -, ho⟩ | ⟨_, ht, h⟩
    · cases ho; exact .inl ⟨e, rfl, rfl⟩
    have hp : existing.payloadFingerprint = state.payloadFingerprint := by
      simpa [raiseIfPayloadConflicts, require] using hp
    have ht : existing.workflowType = state.workflowType := by simpa [require] using ht
    split_ifs at h with hr
    · rw [Op.modify_bind] at h
      cases h
      exact .inr ⟨htr, hten, .inl ⟨existing, rfl, hp, ht, .inr ⟨hr, rfl, rfl⟩⟩⟩
    · cases h
      exact .inr ⟨htr, hten, .inl ⟨existing, rfl, hp, ht, .inl ⟨by simpa using hr, rfl, rfl⟩⟩⟩
  | none =>
    simp only [hk] at h
    split_ifs at h with hid
    · cases h; exact .inl ⟨_, rfl, rfl⟩
    · rw [Op.modify_bind] at h
      cases h
      exact .inr ⟨htr, hten, .inr ⟨rfl, by simpa using hid, rfl, rfl⟩⟩

/-- `upsert` raised without writing, or replaced a state that allows it. -/
theorem upsert_cases {platform : Platform} {r : Except PyError WorkflowState}
    (h : upsert platform principal state s = (r, s')) :
    (∃ e, r = .error e ∧ s' = s) ∨
      principal.trusted = true ∧ state.tenantId = principal.tenantId ∧
      takenByOther s.keyByWorkflowId (principal.tenantId, state.workflowId)
        state.idempotencyKey = false ∧
      (∀ existing, s.statesByKey.get? (principal.tenantId, state.idempotencyKey) = some existing →
        requireReplaceable platform principal existing state = .ok ()) ∧
      r = .ok state ∧
      s' = {
        statesByKey := s.statesByKey.set (principal.tenantId, state.idempotencyKey) state
        keyByWorkflowId := s.keyByWorkflowId.set (principal.tenantId, state.workflowId)
          state.idempotencyKey } := by
  unfold upsert at h
  rcases Op.ofExcept_bind_cases h with ⟨e, -, ho⟩ | ⟨_, htr, h⟩
  · cases ho; exact .inl ⟨e, rfl, rfl⟩
  rcases Op.ofExcept_bind_cases h with ⟨e, -, ho⟩ | ⟨_, hten, h⟩
  · cases ho; exact .inl ⟨e, rfl, rfl⟩
  rw [Op.get_bind] at h
  rcases Op.ofExcept_bind_cases h with ⟨e, -, ho⟩ | ⟨_, hid, h⟩
  · cases ho; exact .inl ⟨e, rfl, rfl⟩
  rcases Op.ofExcept_bind_cases h with ⟨e, -, ho⟩ | ⟨_, hrep, h⟩
  · cases ho; exact .inl ⟨e, rfl, rfl⟩
  rw [Op.modify_bind] at h
  cases h
  refine .inr ⟨requireTrustedPrincipal_eq_ok.mp htr, by
    simpa [requireMatchingTenant, require] using hten, by simpa [require] using hid,
    fun existing he => ?_, rfl, rfl⟩
  rw [he] at hrep
  exact hrep

/-- A replaceable state keeps its identity and, when terminal, its status. -/
theorem requireReplaceable_eq_ok {platform : Platform} {existing : WorkflowState} {u : Unit}
    (h : requireReplaceable platform principal existing state = .ok u) :
    existing.workflowId = state.workflowId ∧ existing.workflowType = state.workflowType ∧
      existing.payloadFingerprint = state.payloadFingerprint ∧
      (existing.status.isTerminal = true → state.status = existing.status ∧
        platform.fingerprint state.json = platform.fingerprint existing.json) := by
  unfold requireReplaceable at h
  obtain ⟨_, h₁, h⟩ := except_bind_eq_ok.mp h
  obtain ⟨_, h₂, h⟩ := except_bind_eq_ok.mp h
  simp only [require, Bool.and_eq_true, decide_eq_true_eq] at h₁
  have h₂ : existing.payloadFingerprint = state.payloadFingerprint := by
    simpa [raiseIfPayloadConflicts, require] using h₂
  split_ifs at h₁ with hid
  refine ⟨hid.1, hid.2, h₂, fun ht => ?_⟩
  by_contra hne
  have : ¬ (state.status = existing.status ∧
      platform.fingerprint state.json = platform.fingerprint existing.json) := hne
  simp only [require, ht, Bool.true_and] at h
  split_ifs at h with hc
  simp only [Bool.not_eq_true', Bool.or_eq_false_iff, decide_eq_false_iff_not, not_not] at hc
  exact hne hc

theorem requireReplaceable_eq_error {platform : Platform} {existing : WorkflowState} {e : PyError}
    (h : requireReplaceable platform principal existing state = .error e) :
    e.code? = some .conflict := by
  unfold requireReplaceable raiseIfPayloadConflicts require at h
  split_ifs at h <;> cases h <;> rfl

/-- A state of the same identity replaces one that is not terminal. -/
theorem requireReplaceable_of_running {platform : Platform} {existing : WorkflowState}
    (hid : existing.workflowId = state.workflowId) (htype : existing.workflowType = state.workflowType)
    (hfp : existing.payloadFingerprint = state.payloadFingerprint)
    (hrunning : existing.status.isTerminal = false) :
    requireReplaceable platform principal existing state = .ok () := by
  simp [requireReplaceable, raiseIfPayloadConflicts, hid, htype, hfp, hrunning]

theorem requireReplaceable_self (platform : Platform) (principal : Principal) (state : WorkflowState) :
    requireReplaceable platform principal state state = .ok () := by
  simp [requireReplaceable, raiseIfPayloadConflicts]

/-- An upsert that may not replace the stored state raises `CONFLICT`. -/
theorem upsert_of_not_replaceable {platform : Platform} {existing : WorkflowState}
    (htr : requireTrustedPrincipal principal = .ok ())
    (hten : requireMatchingTenant principal state = .ok ())
    (hk : s.statesByKey.get? (principal.tenantId, state.idempotencyKey) = some existing)
    (hne : requireReplaceable platform principal existing state ≠ .ok ()) :
    ∃ e, e.code? = some .conflict ∧ upsert platform principal state s = (.error e, s) := by
  unfold upsert
  simp only [htr, hten, Op.ofExcept_ok_bind, Op.get_bind, hk]
  cases takenByOther s.keyByWorkflowId (principal.tenantId, state.workflowId) state.idempotencyKey with
  | true => exact ⟨_, rfl, rfl⟩
  | false =>
    cases hrep : requireReplaceable platform principal existing state with
    | error e => exact ⟨e, requireReplaceable_eq_error hrep, rfl⟩
    | ok _ => exact absurd hrep hne

/-- An upsert of a new key, or over a state it may replace. -/
theorem upsert_of_replaceable {platform : Platform}
    (htr : requireTrustedPrincipal principal = .ok ())
    (hten : requireMatchingTenant principal state = .ok ())
    (hfree : takenByOther s.keyByWorkflowId (principal.tenantId, state.workflowId)
      state.idempotencyKey = false)
    (hrep : ∀ existing, s.statesByKey.get? (principal.tenantId, state.idempotencyKey) = some existing →
      requireReplaceable platform principal existing state = .ok ()) :
    upsert platform principal state s = (.ok state, {
      statesByKey := s.statesByKey.set (principal.tenantId, state.idempotencyKey) state
      keyByWorkflowId := s.keyByWorkflowId.set (principal.tenantId, state.workflowId)
        state.idempotencyKey }) := by
  unfold upsert
  simp only [htr, hten, hfree, Op.ofExcept_ok_bind, Op.get_bind, Bool.not_false, require_true]
  cases hk : s.statesByKey.get? (principal.tenantId, state.idempotencyKey) with
  | none => rfl
  | some existing =>
    simp only [hrep existing hk]
    rfl

end InMemoryWorkflowStateStore

end PersonalAssistant
