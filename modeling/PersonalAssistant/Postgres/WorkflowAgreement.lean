import PersonalAssistant.Postgres.WorkflowStates
import PersonalAssistant.Stores.WorkflowRegistry

/-!
# Both workflow-state stores implement the same machine

The in-memory store and the SQL store, used by one caller at a time. The table holds a row for every
stored state, with the columns the statements test; only the creation time of a row may be older than
that of its payload, since an upsert does not write that column. As long as no call gives a new key the
workflow identifier of another key, both answer alike.
-/
namespace PersonalAssistant

open Lib InMemoryOutbox Program

variable {platform : Platform} {α : Type}

/-! ## Transactions of one caller -/

namespace WorkflowConnection

/-- Between two calls nothing is uncommitted. -/
def idle (t : WorkflowTable) : WorkflowConnection := ⟨t, t⟩

theorem exec_transaction {now : Instant} (body : PostgresWorkflowStateStore.Session α)
    (c : WorkflowConnection) :
    (PostgresWorkflowStateStore.transaction body).exec (perform now) c =
      match body.exec (perform now) c with
      | (.ok a, d) => (.ok a, { d with committed := d.working })
      | (.error e, d) => (.error e, { d with working := d.committed }) := by
  rw [PostgresWorkflowStateStore.transaction, exec_bind, exec_handle, exec_bind]
  generalize body.exec (perform now) c = outcome
  obtain ⟨_ | _, _⟩ := outcome <;> rfl

end WorkflowConnection

/-! ## Related states -/

/-- The row of a stored state. -/
structure WorkflowRow.Holds (platform : Platform) (k : Key) (state : WorkflowState) (r : WorkflowRow) :
    Prop where
  key : r.key = k
  workflowId : r.workflowId = state.workflowId
  workflowType : r.workflowType = state.workflowType
  status : r.status = state.status
  step : r.step = state.step
  payloadFingerprint : r.payloadFingerprint = state.payloadFingerprint
  fingerprint : r.fingerprint = platform.fingerprint state.json
  payload : r.payload = state

/-- The table holds exactly the rows of the stored states. -/
structure WorkflowAgrees (platform : Platform) (H : Set String) (s : InMemoryWorkflowStateStore)
    (t : WorkflowTable) : Prop where
  indexed : s.Indexed
  hashed : s.TerminalHashed H
  stored : ∀ k state, s.statesByKey.get? k = some state →
    ∃ r, t.get? k = some r ∧ r.Holds platform k state
  absent : ∀ k, s.statesByKey.get? k = none → t.get? k = none

variable {H : Set String} {s s' : InMemoryWorkflowStateStore} {t : WorkflowTable}
  {principal : Principal} {state : WorkflowState}

theorem WorkflowRow.holds_ofState (principal : Principal) (state : WorkflowState) :
    (WorkflowRow.ofState platform principal state).Holds platform
      (principal.tenantId, state.idempotencyKey) state :=
  ⟨rfl, rfl, rfl, rfl, rfl, rfl, rfl, rfl⟩

theorem WorkflowRow.Holds.resumedAs {k : Key} {r : WorkflowRow} {existing : WorkflowState}
    (h : r.Holds platform k existing) (now : Instant) :
    (r.resumedAs (existing.transition .running none [] now)
      (platform.fingerprint (existing.transition .running none [] now).json)).Holds platform k
      (existing.transition .running none [] now) :=
  ⟨h.key, h.workflowId, h.workflowType, rfl, h.step, h.payloadFingerprint, rfl, rfl⟩

theorem WorkflowRow.Holds.overwritten {k : Key} {r row : WorkflowRow} {existing : WorkflowState}
    (h : r.Holds platform k existing) (hrow : row.Holds platform k state)
    (hid : r.sameIdentity row = true) : (r.overwritten row).Holds platform k state := by
  simp only [WorkflowRow.sameIdentity, Bool.and_eq_true, decide_eq_true_eq] at hid
  exact ⟨h.key, hid.1.1.trans hrow.workflowId, hid.1.2.trans hrow.workflowType, hrow.status,
    hrow.step, hid.2.trans hrow.payloadFingerprint, hrow.fingerprint, hrow.payload⟩

/-- Writing a state and its row on both sides. -/
theorem WorkflowAgrees.set (h : WorkflowAgrees platform H s t) {k : Key} {r : WorkflowRow}
    (hr : r.Holds platform k state) {ids : Dict Key String}
    (indexed : InMemoryWorkflowStateStore.Indexed ⟨s.statesByKey.set k state, ids⟩)
    (hashed : state.status.isTerminal = true → jsonText state.json ∈ H) :
    WorkflowAgrees platform H ⟨s.statesByKey.set k state, ids⟩ (t.set k r) where
  indexed := indexed
  hashed j st hst hterm := by
    simp only [Dict.get?_set] at hst
    split_ifs at hst
    · cases hst
      exact hashed hterm
    · exact h.hashed j st hst hterm
  stored j st hst := by
    simp only [Dict.get?_set] at hst ⊢
    split_ifs at hst ⊢ with hj
    · cases hst
      exact ⟨r, rfl, hj ▸ hr⟩
    · exact h.stored j st hst
  absent j hj := by
    simp only [Dict.get?_set] at hj ⊢
    split_ifs at hj ⊢ with hjk
    exact h.absent j hj

/-- Both sides hold the same states. -/
theorem WorkflowAgrees.payloads (h : WorkflowAgrees platform H s t) (k : Key) :
    (t.get? k).map WorkflowRow.payload = s.statesByKey.get? k := by
  cases hk : s.statesByKey.get? k with
  | none => rw [h.absent k hk]; rfl
  | some st =>
    obtain ⟨r, hr, holds⟩ := h.stored k st hk
    simp [hr, holds.payload]

/-- For a new key the unique constraint rejects what the identifier index rejects. -/
theorem WorkflowAgrees.clashes_eq (h : WorkflowAgrees platform H s t) (row : WorkflowRow)
    (hk : s.statesByKey.get? row.key = none) :
    WorkflowTable.clashes t row =
      takenByOther s.keyByWorkflowId (row.tenantId, row.workflowId) row.idempotencyKey := by
  have hiff : WorkflowTable.clashes t row = true ↔
      takenByOther s.keyByWorkflowId (row.tenantId, row.workflowId) row.idempotencyKey = true := by
    constructor
    · intro hc
      obtain ⟨⟨k, r⟩, hmem, hp⟩ := List.any_eq_true.mp hc
      simp only [Bool.and_eq_true, decide_eq_true_eq] at hp
      have hget : t.get? k = some r := Dict.mem_entries.mp hmem
      cases hst : s.statesByKey.get? k with
      | none => cases (h.absent k hst).symm.trans hget
      | some st =>
        obtain ⟨r', hr', holds⟩ := h.stored k st hst
        cases hr'.symm.trans hget
        have hindex := (h.indexed.index k.1 st.workflowId k.2).mpr ⟨st, hst, rfl⟩
        rw [hp.1, ← holds.workflowId, hp.2] at hindex
        by_contra hnot
        have heq := takenByOther_eq_false.mp (by simpa using hnot) _ hindex
        have hkey : k = row.key := Prod.ext hp.1 heq
        rw [hkey] at hst
        cases hk.symm.trans hst
    · intro htaken
      by_contra hnot
      have hfree : takenByOther s.keyByWorkflowId (row.tenantId, row.workflowId)
          row.idempotencyKey = false := by
        refine takenByOther_eq_false.mpr fun other hother => ?_
        obtain ⟨st, hst, hid⟩ := (h.indexed.index _ _ _).mp hother
        obtain ⟨r, hr, holds⟩ := h.stored _ st hst
        refine absurd (List.any_eq_true.mpr ⟨((row.tenantId, other), r), Dict.mem_entries.mpr hr, ?_⟩)
          hnot
        simp [holds.workflowId, hid]
      rw [hfree] at htaken
      cases htaken
  cases h₁ : WorkflowTable.clashes t row <;>
    cases h₂ : takenByOther s.keyByWorkflowId (row.tenantId, row.workflowId) row.idempotencyKey <;>
    simp_all

/-! ## One call -/

/-- What both stores do: return the same and stay related, or raise with the same code and change
nothing, or raise an exception that is no `AssistantError`, where `refused`. -/
inductive WorkflowMatches (platform : Platform) (H : Set String) (refused : Prop)
    (s : InMemoryWorkflowStateStore) (t : WorkflowTable) :
    Except PyError α × InMemoryWorkflowStateStore → Except PyError α × WorkflowConnection → Prop where
  | returned {a : α} {s' : InMemoryWorkflowStateStore} {t' : WorkflowTable} :
      WorkflowAgrees platform H s' t' →
      WorkflowMatches platform H refused s t (.ok a, s') (.ok a, .idle t')
  | raised {e e' : PyError} (code : ErrorCode) : e.code? = some code → e'.code? = some code →
      WorkflowMatches platform H refused s t (.error e, s) (.error e', .idle t)
  | refused {e e' : PyError} : refused → e.code? = none → e'.code? = none →
      WorkflowMatches platform H refused s t (.error e, s) (.error e', .idle t)

section Calls

variable {now : Instant} {refused : Prop}

theorem WorkflowMatches.untrusted {e : PyError} (h : requireTrustedPrincipal principal = .error e) :
    WorkflowMatches (α := α) platform H refused s t (.error e, s) (.error e, .idle t) := by
  unfold requireTrustedPrincipal at h
  split_ifs at h
  cases h
  exact .raised .authenticationRequired rfl rfl

theorem WorkflowMatches.foreign {e : PyError}
    (h : InMemoryWorkflowStateStore.requireMatchingTenant principal state = .error e) :
    WorkflowMatches (α := α) platform H refused s t (.error e, s) (.error e, .idle t) := by
  unfold InMemoryWorkflowStateStore.requireMatchingTenant require at h
  split_ifs at h
  cases h
  exact .raised .permissionDenied rfl rfl

theorem requireMatchingTenant_eq_ok {u : Unit}
    (h : InMemoryWorkflowStateStore.requireMatchingTenant principal state = .ok u) :
    state.tenantId = principal.tenantId := by
  unfold InMemoryWorkflowStateStore.requireMatchingTenant require at h
  split_ifs at h with ht
  simpa using ht

/-- A state that replaces nothing of another identity keeps the index. -/
theorem WorkflowAgrees.indexed_set (h : WorkflowAgrees platform H s t)
    (ht : state.tenantId = principal.tenantId)
    (free : takenByOther s.keyByWorkflowId (principal.tenantId, state.workflowId)
      state.idempotencyKey = false)
    (same : ∀ existing, s.statesByKey.get? (principal.tenantId, state.idempotencyKey) =
      some existing → existing.workflowId = state.workflowId) :
    InMemoryWorkflowStateStore.Indexed ⟨s.statesByKey.set (principal.tenantId, state.idempotencyKey) state,
      s.keyByWorkflowId.set (principal.tenantId, state.workflowId) state.idempotencyKey⟩ :=
  h.indexed.set ht free same

open PostgresWorkflowStateStore WorkflowConnection

variable {c d : WorkflowConnection} {key : Key} {row : WorkflowRow}

/-- A statement answers or raises what the table says. -/
theorem exec_selectForUpdate (hb : bindable key = true) :
    (selectForUpdate key).exec (WorkflowConnection.perform now) c = (.ok (c.working.get? key), c) := by
  have h : WorkflowConnection.perform now (.selectForUpdate key) c = (.ok (c.working.get? key), c) := by
    simp [WorkflowConnection.perform, hb]
  exact (exec_ofExcept _ _).trans h

theorem exec_select (hb : bindable key = true) :
    (select key).exec (WorkflowConnection.perform now) c = (.ok (c.working.get? key), c) := by
  have h : WorkflowConnection.perform now (.select key) c = (.ok (c.working.get? key), c) := by
    simp [WorkflowConnection.perform, hb]
  exact (exec_ofExcept _ _).trans h

theorem exec_insert_taken (hs : row.storable = true) {old : WorkflowRow}
    (hk : c.working.get? row.key = some old) :
    (PostgresWorkflowStateStore.insert row).exec (WorkflowConnection.perform now) c = (.ok none, c) := by
  have h : WorkflowConnection.perform now (.insert row) c = (.ok none, c) := by
    simp [WorkflowConnection.perform, hs, hk]
  exact (exec_ofExcept _ _).trans h

theorem exec_insert_new (hs : row.storable = true) (hk : c.working.get? row.key = none)
    (hc : WorkflowTable.clashes c.working row = false) :
    (PostgresWorkflowStateStore.insert row).exec (WorkflowConnection.perform now) c =
      (.ok (some row.payload), c.write row) := by
  have h : WorkflowConnection.perform now (.insert row) c = (.ok (some row.payload), c.write row) := by
    simp [WorkflowConnection.perform, hs, hk, insertNew, hc]
  exact (exec_ofExcept _ _).trans h

theorem exec_insert_clash (hs : row.storable = true) (hk : c.working.get? row.key = none)
    (hc : WorkflowTable.clashes c.working row = true) :
    (PostgresWorkflowStateStore.insert row).exec (WorkflowConnection.perform now) c =
      (.error (.integrityError "assistant_workflow_states"), c) := by
  have h : WorkflowConnection.perform now (.insert row) c =
      (.error (.integrityError "assistant_workflow_states"), c) := by
    simp [WorkflowConnection.perform, hs, hk, insertNew, hc]
  exact (exec_ofExcept _ _).trans h

theorem exec_resume {resumed : WorkflowState} {fingerprint : Digest} {step : String}
    {payloadFingerprint : Option String} (hk : c.working.get? key = some row)
    (ha : row.awaits step payloadFingerprint = true) :
    (resume key resumed fingerprint step payloadFingerprint).exec (WorkflowConnection.perform now) c =
      (.ok (some resumed),
        { c with working := c.working.set key (row.resumedAs resumed fingerprint) }) := by
  have h : WorkflowConnection.perform now (.resume key resumed fingerprint step payloadFingerprint) c =
      (.ok (some resumed),
        { c with working := c.working.set key (row.resumedAs resumed fingerprint) }) := by
    simp [WorkflowConnection.perform, hk, ha]
  exact (exec_ofExcept _ _).trans h

theorem exec_insertOrUpdate_new {found : Bool} (hs : row.storable = true)
    (hk : c.working.get? row.key = none) (hc : WorkflowTable.clashes c.working row = false) :
    (insertOrUpdate row found).exec (WorkflowConnection.perform now) c =
      (.ok (some row.payload), c.write row) := by
  have h : WorkflowConnection.perform now (.insertOrUpdate row found) c =
      (.ok (some row.payload), c.write row) := by
    simp [WorkflowConnection.perform, hs, hk, insertNew, hc]
  exact (exec_ofExcept _ _).trans h

theorem exec_insertOrUpdate_clash {found : Bool} (hs : row.storable = true)
    (hk : c.working.get? row.key = none) (hc : WorkflowTable.clashes c.working row = true) :
    (insertOrUpdate row found).exec (WorkflowConnection.perform now) c =
      (.error (.integrityError "assistant_workflow_states"), c) := by
  have h : WorkflowConnection.perform now (.insertOrUpdate row found) c =
      (.error (.integrityError "assistant_workflow_states"), c) := by
    simp [WorkflowConnection.perform, hs, hk, insertNew, hc]
  exact (exec_ofExcept _ _).trans h

theorem exec_insertOrUpdate_taken {found : Bool} {old : WorkflowRow} (hs : row.storable = true)
    (hk : c.working.get? row.key = some old) (hid : old.sameIdentity row = true) :
    (insertOrUpdate row found).exec (WorkflowConnection.perform now) c =
      (.ok (some row.payload), { c with working := c.working.set row.key (old.overwritten row) }) := by
  have h : WorkflowConnection.perform now (.insertOrUpdate row found) c =
      (.ok (some row.payload), { c with working := c.working.set row.key (old.overwritten row) }) := by
    simp [WorkflowConnection.perform, hs, hk, hid]
  exact (exec_ofExcept _ _).trans h

/-- A registration the payload rule refuses in both stores. -/
def Unfingerprinted (principal : Principal) (state : WorkflowState) : Prop :=
  principal.trusted = true ∧ state.tenantId = principal.tenantId ∧ state.payloadFingerprint = none

/-- The key is new and its workflow identifier belongs to another key. -/
def ReusesIdentifier (principal : Principal) (state : WorkflowState) (s : InMemoryWorkflowStateStore) :
    Prop :=
  s.statesByKey.get? (principal.tenantId, state.idempotencyKey) = none ∧
    takenByOther s.keyByWorkflowId (principal.tenantId, state.workflowId) state.idempotencyKey = true

theorem exec_require {b : Bool} {e : PyError} {f : Unit → Session α} :
    (ofExcept (require b e) >>= f).exec (WorkflowConnection.perform now) c =
      if b then (f ()).exec (WorkflowConnection.perform now) c else (.error e, c) := by
  cases b <;> rfl

/-- The replay of a stored key, read off the row of its state. -/
theorem exec_replay {existing : WorkflowState} {resumeFromStep : Option String}
    (hb : bindable (principal.tenantId, state.idempotencyKey) = true)
    (hk : c.working.get? (principal.tenantId, state.idempotencyKey) = some row)
    (holds : row.Holds platform (principal.tenantId, state.idempotencyKey) existing) :
    (replay platform principal state resumeFromStep).exec (WorkflowConnection.perform now) c =
      if existing.payloadFingerprint = state.payloadFingerprint then
        if existing.workflowType = state.workflowType then
          if InMemoryWorkflowStateStore.resumable existing resumeFromStep then
            (.ok ⟨existing.transition .running none [] now, false, true⟩,
              { c with
                working := c.working.set (principal.tenantId, state.idempotencyKey)
                  (row.resumedAs (existing.transition .running none [] now)
                    (platform.fingerprint (existing.transition .running none [] now).json)) })
          else (.ok ⟨existing, true, false⟩, c)
        else (.error (identityConflict principal), c)
      else (.error (.reminderIdempotencyConflict principal.tenantId state.idempotencyKey), c) := by
  rw [replay, exec_bind_ok (exec_selectForUpdate hb)]
  simp only [hk]
  rw [exec_require, holds.payloadFingerprint]
  by_cases hfp : existing.payloadFingerprint = state.payloadFingerprint
  swap
  · simp [hfp]
  rw [if_pos (by simpa using hfp), if_pos hfp, exec_require, holds.payload]
  by_cases htype : existing.workflowType = state.workflowType
  swap
  · simp [htype]
  rw [if_pos (by simpa using htype), if_pos htype]
  cases resumeFromStep with
  | none => rfl
  | some step =>
    by_cases hwait : existing.status = .waitingApproval ∧ existing.step = step
    · obtain ⟨hstatus, rfl⟩ := hwait
      have hres : InMemoryWorkflowStateStore.resumable existing (some existing.step) = true := by
        simp [InMemoryWorkflowStateStore.resumable, hstatus]
      have hawaits : row.awaits existing.step state.payloadFingerprint = true := by
        simp [WorkflowRow.awaits, holds.status, holds.step, holds.payloadFingerprint, hstatus, hfp]
      simp only [hstatus, and_self, if_true, hres]
      have hclock : (clock).exec (WorkflowConnection.perform now) c = (.ok now, c) := rfl
      rw [exec_bind_ok hclock, exec_bind_ok (exec_resume hk hawaits)]
      rfl
    · have hres : InMemoryWorkflowStateStore.resumable existing (some step) = false := by
        simp only [InMemoryWorkflowStateStore.resumable, Option.isSome_some, Bool.true_and,
          Bool.and_eq_false_iff, decide_eq_false_iff_not, Option.some.injEq]
        tauto
      simp only [hwait, if_false, hres, Bool.false_eq_true]
      rfl

theorem bindable_of_storable (hs : (WorkflowRow.ofState platform principal state).storable = true) :
    bindable (principal.tenantId, state.idempotencyKey) = true := by
  simp only [WorkflowRow.storable, Bool.and_eq_true] at hs
  exact hs.1

/-- A new key that reuses no identifier meets no unique constraint. -/
theorem WorkflowAgrees.clashes_eq_false (h : WorkflowAgrees platform H s t)
    (hk : s.statesByKey.get? (principal.tenantId, state.idempotencyKey) = none)
    (hid : takenByOther s.keyByWorkflowId (principal.tenantId, state.workflowId)
      state.idempotencyKey = false) :
    WorkflowTable.clashes t (.ofState platform principal state) = false :=
  (h.clashes_eq (.ofState platform principal state) hk).trans hid

theorem WorkflowAgrees.registerOrReplay (h : WorkflowAgrees platform H s t)
    (hs : (WorkflowRow.ofState platform principal state).storable = true)
    (hashed : jsonText state.json ∈ H) (hfree : ¬ ReusesIdentifier principal state s)
    (resumeFromStep : Option String) :
    WorkflowMatches platform H (Unfingerprinted principal state) s t
      (InMemoryWorkflowStateStore.registerOrReplay principal state resumeFromStep now s)
      ((PostgresWorkflowStateStore.registerOrReplay platform principal state resumeFromStep).exec
        (WorkflowConnection.perform now) (.idle t)) := by
  unfold InMemoryWorkflowStateStore.registerOrReplay PostgresWorkflowStateStore.registerOrReplay
  cases htr : requireTrustedPrincipal principal with
  | error e => exact .untrusted htr
  | ok _ =>
  cases hten : InMemoryWorkflowStateStore.requireMatchingTenant principal state with
  | error e => exact .foreign hten
  | ok _ =>
  have hten := requireMatchingTenant_eq_ok hten
  cases hfp : state.payloadFingerprint with
  | none => exact .refused ⟨requireTrustedPrincipal_eq_ok.mp htr, hten, hfp⟩ rfl rfl
  | some fingerprint =>
  simp only [Op.ofExcept_ok_bind, Program.ofExcept_ok_bind, Option.isSome_some, require_true,
    Op.get_bind]
  cases hk : s.statesByKey.get? (principal.tenantId, state.idempotencyKey) with
  | none =>
    have hid : takenByOther s.keyByWorkflowId (principal.tenantId, state.workflowId)
        state.idempotencyKey = false := by
      simpa [ReusesIdentifier, hk] using hfree
    rw [exec_transaction,
      exec_bind_ok (exec_insert_new hs (h.absent _ hk) (h.clashes_eq_false hk hid))]
    simp only [hid, Bool.false_eq_true, if_false]
    exact .returned (h.set (WorkflowRow.holds_ofState principal state)
      (h.indexed_set hten hid (by simp [hk])) fun _ => hashed)
  | some existing =>
    obtain ⟨row, hrow, holds⟩ := h.stored _ existing hk
    rw [exec_transaction, exec_bind_ok (exec_insert_taken hs hrow)]
    simp only
    rw [exec_replay (bindable_of_storable hs) hrow holds]
    simp only [InMemoryWorkflowStateStore.raiseIfPayloadConflicts]
    by_cases hsame : existing.payloadFingerprint = state.payloadFingerprint
    swap
    · simp only [hsame, decide_false, if_false]
      exact .raised .conflict rfl rfl
    by_cases htype : existing.workflowType = state.workflowType
    swap
    · simp only [hsame, htype, decide_true, decide_false, if_true, if_false]
      exact .raised .conflict rfl rfl
    simp only [hsame, htype, decide_true, require_true, Op.ofExcept_ok_bind, if_true]
    cases hres : InMemoryWorkflowStateStore.resumable existing resumeFromStep with
    | false => exact .returned h
    | true =>
      have hterm : (existing.transition .running none [] now).status.isTerminal = true →
          jsonText (existing.transition .running none [] now).json ∈ H := by
        simp [WorkflowState.transition, WorkflowStatus.isTerminal]
      exact .returned (h.set (holds.resumedAs now) (h.indexed.setState hk rfl rfl rfl) hterm)

/-- The write of an upsert over the row of a stored state. -/
theorem exec_write_taken {found : Bool}
    (hs : (WorkflowRow.ofState platform principal state).storable = true)
    (hk : c.working.get? (principal.tenantId, state.idempotencyKey) = some row)
    (hid : row.sameIdentity (.ofState platform principal state) = true) :
    (write platform principal state found).exec (WorkflowConnection.perform now) c =
      (.ok state, { c with
        working := c.working.set (principal.tenantId, state.idempotencyKey)
          (row.overwritten (.ofState platform principal state)) }) := by
  rw [PostgresWorkflowStateStore.write, exec_bind_ok (exec_insertOrUpdate_taken hs hk hid)]
  rfl

/-- The upsert over the row of a stored state. -/
theorem exec_upsert_taken {existing : WorkflowState} (htr : requireTrustedPrincipal principal = .ok ())
    (hten : InMemoryWorkflowStateStore.requireMatchingTenant principal state = .ok ())
    (hs : (WorkflowRow.ofState platform principal state).storable = true)
    (hk : t.get? (principal.tenantId, state.idempotencyKey) = some row)
    (holds : row.Holds platform (principal.tenantId, state.idempotencyKey) existing) :
    (PostgresWorkflowStateStore.upsert platform principal state).exec
        (WorkflowConnection.perform now) (.idle t) =
      if existing.payloadFingerprint = state.payloadFingerprint then
        if existing.workflowId = state.workflowId ∧ existing.workflowType = state.workflowType then
          if existing.status.isTerminal then
            if platform.fingerprint existing.json = platform.fingerprint state.json then
              (.ok existing, .idle t)
            else (.error (conflict "terminal workflow state is immutable" principal), .idle t)
          else (.ok state, .idle (t.set (principal.tenantId, state.idempotencyKey)
            (row.overwritten (.ofState platform principal state))))
        else (.error (identityConflict principal), .idle t)
      else (.error (.reminderIdempotencyConflict principal.tenantId state.idempotencyKey), .idle t) := by
  have hk' : (WorkflowConnection.idle t).working.get? (principal.tenantId, state.idempotencyKey) =
    some row := hk
  unfold PostgresWorkflowStateStore.upsert
  simp only [htr, hten, Program.ofExcept_ok_bind]
  rw [exec_transaction, exec_bind_ok (exec_selectForUpdate (bindable_of_storable hs))]
  simp only [hk', exec_require, holds.payloadFingerprint, holds.payload, holds.status,
    holds.fingerprint, decide_eq_true_eq, Bool.and_eq_true]
  by_cases hfp : existing.payloadFingerprint = state.payloadFingerprint
  swap
  · simp only [hfp, if_false]
    rfl
  by_cases hid : existing.workflowId = state.workflowId ∧ existing.workflowType = state.workflowType
  swap
  · simp only [hfp, hid, if_true, if_false]
    rfl
  simp only [hfp, hid, and_self, if_true]
  cases hterm : existing.status.isTerminal with
  | true =>
    simp only [if_true, exec_require, decide_eq_true_eq]
    by_cases hdump : platform.fingerprint existing.json = platform.fingerprint state.json
    · simp only [hdump, if_true]
      rfl
    · simp only [hdump, if_false]
      rfl
  | false =>
    have hident : row.sameIdentity (.ofState platform principal state) = true := by
      simp [WorkflowRow.sameIdentity, WorkflowRow.ofState, holds.workflowId, holds.workflowType,
        holds.payloadFingerprint, hid, hfp]
    simp only [Bool.false_eq_true, if_false]
    rw [exec_write_taken hs hk' hident]
    rfl

/-- Over a stored state both stores replace what may be replaced. -/
theorem WorkflowAgrees.upsert_taken (h : WorkflowAgrees platform H s t)
    (free : Set.InjOn platform.sha256 H)
    (hs : (WorkflowRow.ofState platform principal state).storable = true)
    (hashed : jsonText state.json ∈ H) (htr : requireTrustedPrincipal principal = .ok ())
    (hten : InMemoryWorkflowStateStore.requireMatchingTenant principal state = .ok ())
    {existing : WorkflowState}
    (hk : s.statesByKey.get? (principal.tenantId, state.idempotencyKey) = some existing) :
    WorkflowMatches platform H False s t
      (InMemoryWorkflowStateStore.upsert platform principal state s)
      ((PostgresWorkflowStateStore.upsert platform principal state).exec
        (WorkflowConnection.perform now) (.idle t)) := by
  obtain ⟨row, hrow, holds⟩ := h.stored _ existing hk
  have hten' := requireMatchingTenant_eq_ok hten
  rw [exec_upsert_taken htr hten hs hrow holds]
  -- equal dumps of a terminal state are equal states
  have hequal : existing.status.isTerminal = true →
      platform.fingerprint existing.json = platform.fingerprint state.json → existing = state := by
    intro hterm hdump
    exact WorkflowState.json_injective
      (jsonText_injective (free (h.hashed _ existing hk hterm) hashed hdump))
  cases hrep : InMemoryWorkflowStateStore.requireReplaceable platform principal existing state with
  | error e =>
    have hne : InMemoryWorkflowStateStore.requireReplaceable platform principal existing state ≠
      .ok () := by simp [hrep]
    obtain ⟨e', hcode, hrun⟩ :=
      InMemoryWorkflowStateStore.upsert_of_not_replaceable htr hten hk hne
    rw [hrun]
    split_ifs with hfp hid hterm hdump
    · obtain rfl := hequal hterm hdump
      exact absurd (InMemoryWorkflowStateStore.requireReplaceable_self _ _ _) hne
    · exact .raised .conflict hcode rfl
    · exact absurd (InMemoryWorkflowStateStore.requireReplaceable_of_running hid.1 hid.2 hfp
        (by simpa using hterm)) hne
    · exact .raised .conflict hcode rfl
    · exact .raised .conflict hcode rfl
  | ok _ =>
    obtain ⟨hid, htype, hfp, hdump⟩ := InMemoryWorkflowStateStore.requireReplaceable_eq_ok hrep
    have hindex := (h.indexed.index principal.tenantId state.workflowId state.idempotencyKey).mpr
      ⟨existing, hk, hid⟩
    have hown : takenByOther s.keyByWorkflowId (principal.tenantId, state.workflowId)
        state.idempotencyKey = false :=
      takenByOther_eq_false.mpr fun other hother => Option.some.inj (hother.symm.trans hindex)
    rw [InMemoryWorkflowStateStore.upsert_of_replaceable htr hten hown fun old hold => by
      cases hk.symm.trans hold; exact hrep]
    simp only [hfp, hid, htype, and_self, if_true]
    cases hterm : existing.status.isTerminal with
    | true =>
      obtain rfl := hequal hterm (hdump hterm).2.symm
      simp only [Dict.set_of_get? hk, Dict.set_of_get? hindex, if_true]
      exact .returned h
    | false =>
      have hident : row.sameIdentity (.ofState platform principal state) = true := by
        simp [WorkflowRow.sameIdentity, WorkflowRow.ofState, holds.workflowId, holds.workflowType,
          holds.payloadFingerprint, hid, htype, hfp]
      simp only [Bool.false_eq_true, if_false]
      exact .returned (h.set (holds.overwritten (WorkflowRow.holds_ofState principal state) hident)
        (h.indexed_set hten' hown fun old hold => by cases hk.symm.trans hold; exact hid)
        fun _ => hashed)

theorem WorkflowAgrees.upsert (h : WorkflowAgrees platform H s t)
    (free : Set.InjOn platform.sha256 H)
    (hs : (WorkflowRow.ofState platform principal state).storable = true)
    (hashed : jsonText state.json ∈ H) (hfree : ¬ ReusesIdentifier principal state s) :
    WorkflowMatches platform H False s t
      (InMemoryWorkflowStateStore.upsert platform principal state s)
      ((PostgresWorkflowStateStore.upsert platform principal state).exec
        (WorkflowConnection.perform now) (.idle t)) := by
  cases htr : requireTrustedPrincipal principal with
  | error e =>
    unfold InMemoryWorkflowStateStore.upsert PostgresWorkflowStateStore.upsert
    rw [htr]
    exact .untrusted htr
  | ok _ =>
  cases hten : InMemoryWorkflowStateStore.requireMatchingTenant principal state with
  | error e =>
    unfold InMemoryWorkflowStateStore.upsert PostgresWorkflowStateStore.upsert
    rw [htr, hten]
    exact .foreign hten
  | ok _ =>
  have hten' := requireMatchingTenant_eq_ok hten
  cases hk : s.statesByKey.get? (principal.tenantId, state.idempotencyKey) with
  | none =>
    have hid : takenByOther s.keyByWorkflowId (principal.tenantId, state.workflowId)
        state.idempotencyKey = false := by
      simpa [ReusesIdentifier, hk] using hfree
    have habsent : (WorkflowConnection.idle t).working.get? (principal.tenantId, state.idempotencyKey) =
      none := h.absent _ hk
    rw [InMemoryWorkflowStateStore.upsert_of_replaceable htr hten hid (by simp [hk])]
    unfold PostgresWorkflowStateStore.upsert
    simp only [htr, hten, Program.ofExcept_ok_bind]
    rw [exec_transaction, exec_bind_ok (exec_selectForUpdate (bindable_of_storable hs))]
    simp only [habsent]
    rw [PostgresWorkflowStateStore.write,
      exec_bind_ok (exec_insertOrUpdate_new hs (h.absent _ hk) (h.clashes_eq_false hk hid))]
    exact .returned (h.set (WorkflowRow.holds_ofState principal state)
      (h.indexed_set hten' hid (by simp [hk])) fun _ => hashed)
  | some existing => exact h.upsert_taken free hs hashed htr hten hk

/-- A call refused by both stores, which it leaves as they were. -/
def RefusedByBoth (s : InMemoryWorkflowStateStore) (t : WorkflowTable)
    (x : Except PyError α × InMemoryWorkflowStateStore) (y : Except PyError α × WorkflowConnection) : Prop :=
  ∃ e e', x = (.error e, s) ∧ y = (.error e', .idle t)

/-- The index refuses a reused identifier, and so does the unique constraint. -/
theorem WorkflowAgrees.registerOrReplay_reused (h : WorkflowAgrees platform H s t)
    (hs : (WorkflowRow.ofState platform principal state).storable = true)
    (hreused : ReusesIdentifier principal state s) (resumeFromStep : Option String) :
    RefusedByBoth s t (InMemoryWorkflowStateStore.registerOrReplay principal state resumeFromStep now s)
      ((PostgresWorkflowStateStore.registerOrReplay platform principal state resumeFromStep).exec
        (WorkflowConnection.perform now) (.idle t)) := by
  obtain ⟨hk, htaken⟩ := hreused
  unfold InMemoryWorkflowStateStore.registerOrReplay PostgresWorkflowStateStore.registerOrReplay
  cases requireTrustedPrincipal principal with
  | error e => exact ⟨e, e, rfl, rfl⟩
  | ok _ =>
  cases InMemoryWorkflowStateStore.requireMatchingTenant principal state with
  | error e => exact ⟨e, e, rfl, rfl⟩
  | ok _ =>
  cases state.payloadFingerprint with
  | none => exact ⟨_, _, rfl, rfl⟩
  | some fingerprint =>
  simp only [Op.ofExcept_ok_bind, Program.ofExcept_ok_bind, Option.isSome_some, require_true, Op.get_bind,
    hk, htaken, if_true]
  have hclash : WorkflowTable.clashes t (.ofState platform principal state) = true :=
    (h.clashes_eq (.ofState platform principal state) hk).trans htaken
  rw [exec_transaction, exec_bind, exec_insert_clash hs (h.absent _ hk) hclash]
  exact ⟨_, _, rfl, rfl⟩

theorem WorkflowAgrees.upsert_reused (h : WorkflowAgrees platform H s t)
    (hs : (WorkflowRow.ofState platform principal state).storable = true)
    (hreused : ReusesIdentifier principal state s) :
    RefusedByBoth s t (InMemoryWorkflowStateStore.upsert platform principal state s)
      ((PostgresWorkflowStateStore.upsert platform principal state).exec
        (WorkflowConnection.perform now) (.idle t)) := by
  obtain ⟨hk, htaken⟩ := hreused
  unfold InMemoryWorkflowStateStore.upsert PostgresWorkflowStateStore.upsert
  cases requireTrustedPrincipal principal with
  | error e => exact ⟨e, e, rfl, rfl⟩
  | ok _ =>
  cases InMemoryWorkflowStateStore.requireMatchingTenant principal state with
  | error e => exact ⟨e, e, rfl, rfl⟩
  | ok _ =>
  have habsent : (WorkflowConnection.idle t).working.get? (principal.tenantId, state.idempotencyKey) = none :=
    h.absent _ hk
  have hclash : WorkflowTable.clashes t (.ofState platform principal state) = true :=
    (h.clashes_eq (.ofState platform principal state) hk).trans htaken
  simp only [Op.ofExcept_ok_bind, Program.ofExcept_ok_bind, Op.get_bind, htaken]
  rw [exec_transaction, exec_bind_ok (exec_selectForUpdate (bindable_of_storable hs))]
  simp only [habsent]
  rw [PostgresWorkflowStateStore.write, exec_bind, exec_insertOrUpdate_clash hs habsent hclash]
  exact ⟨_, _, rfl, rfl⟩

theorem WorkflowAgrees.getByIdempotencyKey (h : WorkflowAgrees platform H s t) {idempotencyKey : String}
    (hb : bindable (principal.tenantId, idempotencyKey) = true) :
    WorkflowMatches platform H False s t
      (InMemoryWorkflowStateStore.getByIdempotencyKey principal idempotencyKey s)
      ((PostgresWorkflowStateStore.getByIdempotencyKey principal idempotencyKey).exec
        (WorkflowConnection.perform now) (.idle t)) := by
  unfold InMemoryWorkflowStateStore.getByIdempotencyKey PostgresWorkflowStateStore.getByIdempotencyKey
  cases htr : requireTrustedPrincipal principal with
  | error e => exact .untrusted htr
  | ok _ =>
  simp only [Op.ofExcept_ok_bind, Program.ofExcept_ok_bind, Op.get_bind]
  rw [exec_transaction, exec_bind_ok (exec_select hb), ← h.payloads]
  exact .returned h

end Calls

/-! ## Histories -/

inductive WorkflowStateCall where
  | registerOrReplay (principal : Principal) (state : WorkflowState) (resumeFromStep : Option String)
  | upsert (principal : Principal) (state : WorkflowState)
  | getByIdempotencyKey (principal : Principal) (idempotencyKey : String)

inductive WorkflowStateAnswer where
  | registered (registration : WorkflowStateRegistration)
  | stored (state : WorkflowState)
  | found (state : Option WorkflowState)

namespace WorkflowStateCall

def run (platform : Platform) (now : Instant) :
    WorkflowStateCall → InMemoryWorkflowStateStore.Method WorkflowStateAnswer
  | registerOrReplay principal state resumeFromStep => do
    let registration ← InMemoryWorkflowStateStore.registerOrReplay principal state resumeFromStep now
    return .registered registration
  | upsert principal state => do
    let stored ← InMemoryWorkflowStateStore.upsert platform principal state
    return .stored stored
  | getByIdempotencyKey principal idempotencyKey => do
    let state ← InMemoryWorkflowStateStore.getByIdempotencyKey principal idempotencyKey
    return .found state

def session (platform : Platform) : WorkflowStateCall → PostgresWorkflowStateStore.Session WorkflowStateAnswer
  | registerOrReplay principal state resumeFromStep => do
    let registration ← PostgresWorkflowStateStore.registerOrReplay platform principal state resumeFromStep
    return .registered registration
  | upsert principal state => do
    let stored ← PostgresWorkflowStateStore.upsert platform principal state
    return .stored stored
  | getByIdempotencyKey principal idempotencyKey => do
    let state ← PostgresWorkflowStateStore.getByIdempotencyKey principal idempotencyKey
    return .found state

/-- The answer of the SQL store and the table the call leaves. -/
def runPostgres (platform : Platform) (now : Instant) (call : WorkflowStateCall) (t : WorkflowTable) :
    Except PyError WorkflowStateAnswer × WorkflowTable :=
  let outcome := (call.session platform).exec (WorkflowConnection.perform now) (.idle t)
  (outcome.1, outcome.2.committed)

/-- The texts of the call are texts the server stores. -/
def InRange (platform : Platform) : WorkflowStateCall → Prop
  | registerOrReplay principal state _ => (WorkflowRow.ofState platform principal state).storable = true
  | upsert principal state => (WorkflowRow.ofState platform principal state).storable = true
  | getByIdempotencyKey principal idempotencyKey =>
    bindable (principal.tenantId, idempotencyKey) = true

/-- The text the stores hash. -/
def hashed : WorkflowStateCall → Set String
  | registerOrReplay _ state _ => {jsonText state.json}
  | upsert _ state => {jsonText state.json}
  | getByIdempotencyKey .. => ∅

/-- The call gives a new key the workflow identifier of another key of its tenant. -/
def ReusesIdentifier : WorkflowStateCall → InMemoryWorkflowStateStore → Prop
  | registerOrReplay principal state _, s => PersonalAssistant.ReusesIdentifier principal state s
  | upsert principal state, s => PersonalAssistant.ReusesIdentifier principal state s
  | getByIdempotencyKey .., _ => False

/-- A registration of the principal's own tenant without a payload fingerprint. -/
def Unfingerprinted : WorkflowStateCall → Prop
  | registerOrReplay principal state _ => PersonalAssistant.Unfingerprinted principal state
  | _ => False

end WorkflowStateCall

theorem WorkflowMatches.map {β : Type} {refused refused' : Prop} (f : α → β) {now : Instant}
    {x : InMemoryWorkflowStateStore.Method α} {p : PostgresWorkflowStateStore.Session α}
    (hrefused : refused → refused')
    (h : WorkflowMatches platform H refused s t (x s) (p.exec (WorkflowConnection.perform now) (.idle t))) :
    WorkflowMatches platform H refused' s t ((x >>= fun a => pure (f a)) s)
      ((p >>= fun a => pure (f a)).exec (WorkflowConnection.perform now) (.idle t)) := by
  rw [Op.bind_apply, Program.exec_bind]
  generalize x s = o at h ⊢
  generalize p.exec (WorkflowConnection.perform now) (.idle t) = o' at h ⊢
  cases h with
  | returned h => exact .returned h
  | raised code h h' => exact .raised code h h'
  | refused hr h h' => exact .refused (hrefused hr) h h'

theorem WorkflowStateCall.matches_run (h : WorkflowAgrees platform H s t)
    (free : Set.InjOn platform.sha256 H) {call : WorkflowStateCall} {now : Instant}
    (hr : call.InRange platform) (hh : call.hashed ⊆ H) (hfree : ¬ call.ReusesIdentifier s) :
    WorkflowMatches platform H call.Unfingerprinted s t (call.run platform now s)
      ((call.session platform).exec (WorkflowConnection.perform now) (.idle t)) := by
  cases call with
  | registerOrReplay principal state resumeFromStep =>
    exact .map _ id (h.registerOrReplay hr (hh rfl) hfree resumeFromStep)
  | upsert principal state => exact .map _ False.elim (h.upsert free hr (hh rfl) hfree)
  | getByIdempotencyKey principal idempotencyKey => exact .map _ False.elim (h.getByIdempotencyKey hr)

theorem RefusedByBoth.map {β : Type} (f : α → β) {now : Instant}
    {x : InMemoryWorkflowStateStore.Method α} {p : PostgresWorkflowStateStore.Session α}
    (h : RefusedByBoth s t (x s) (p.exec (WorkflowConnection.perform now) (.idle t))) :
    RefusedByBoth s t ((x >>= fun a => pure (f a)) s)
      ((p >>= fun a => pure (f a)).exec (WorkflowConnection.perform now) (.idle t)) := by
  obtain ⟨e, e', hx, hy⟩ := h
  rw [Op.bind_apply, Program.exec_bind, hx, hy]
  exact ⟨e, e', rfl, rfl⟩

theorem WorkflowStateCall.refused_of_reused (h : WorkflowAgrees platform H s t) {call : WorkflowStateCall}
    {now : Instant} (hr : call.InRange platform) (hreused : call.ReusesIdentifier s) :
    RefusedByBoth s t (call.run platform now s)
      ((call.session platform).exec (WorkflowConnection.perform now) (.idle t)) := by
  cases call with
  | registerOrReplay principal state resumeFromStep =>
    exact .map _ (h.registerOrReplay_reused hr hreused resumeFromStep)
  | upsert principal state => exact .map _ (h.upsert_reused hr hreused)
  | getByIdempotencyKey principal idempotencyKey => exact hreused.elim

/-- States of both stores after the same calls in range, from empty ones. -/
inductive BothStore (platform : Platform) (H : Set String) :
    InMemoryWorkflowStateStore → WorkflowTable → Prop where
  | empty : BothStore platform H .empty .empty
  | call {s : InMemoryWorkflowStateStore} {t : WorkflowTable} (c : WorkflowStateCall) (now : Instant) :
      BothStore platform H s t → c.InRange platform → c.hashed ⊆ H →
      BothStore platform H (c.run platform now s).2 (c.runPostgres platform now t).2

theorem WorkflowMatches.agrees {refused : Prop} (h : WorkflowAgrees platform H s t)
    {x : Except PyError α × InMemoryWorkflowStateStore} {y : Except PyError α × WorkflowConnection}
    (hm : WorkflowMatches platform H refused s t x y) : WorkflowAgrees platform H x.2 y.2.committed := by
  cases hm with
  | returned h' => exact h'
  | raised => exact h
  | refused => exact h

theorem WorkflowAgrees.empty (platform : Platform) (H : Set String) :
    WorkflowAgrees platform H .empty .empty where
  indexed := InMemoryWorkflowStateStore.indexed_empty
  hashed _ _ h := by cases h
  stored _ _ h := by cases h
  absent _ _ := rfl

theorem BothStore.agrees (free : Set.InjOn platform.sha256 H) (h : BothStore platform H s t) :
    WorkflowAgrees platform H s t := by
  induction h with
  | empty => exact .empty platform H
  | @call s t c now _ hr hh ih =>
    by_cases hreused : c.ReusesIdentifier s
    · obtain ⟨e, e', hx, hy⟩ := @WorkflowStateCall.refused_of_reused platform H s t ih c now hr hreused
      rw [WorkflowStateCall.runPostgres, hx, hy]
      exact ih
    · exact (c.matches_run ih free hr hh hreused).agrees ih

end PersonalAssistant
