import PersonalAssistant.Lib.Runs
import PersonalAssistant.Stores.Approvals

/-!
# Approval records

Histories of calls on the in-memory approval store. Records stand under their approval identifier and
are found by their idempotency key through a second map. `create` looks the key up but not the
identifier, so a create for a new key under a stored identifier replaces the record of another key; as
long as none does, the maps agree and no record is lost.
-/
namespace PersonalAssistant

open Lib

variable {platform : Platform}

/-- The idempotency key of a record. -/
def PendingApproval.approvalKey (a : PendingApproval) : ApprovalKey :=
  (a.tenantId, a.principalId, a.workflowKind, a.idempotencyKey)

/-- A call that may write. -/
inductive ApprovalCall where
  | create (principal : Principal) (approval : PendingApproval)
  | markApproved (principal : Principal) (approvalId : String) (now : Instant)
  | approve (principal : Principal) (approvalId : String) (now : Instant)
  | cancel (principal : Principal) (approvalId : String) (now : Instant)
  | reject (principal : Principal) (approvalId : String) (now : Instant)

def ApprovalCall.principal : ApprovalCall → Principal
  | .create p .. | .markApproved p .. | .approve p .. | .cancel p .. | .reject p .. => p

inductive ApprovalAnswer where
  | record (approval : PendingApproval)
  | grant (grant : ApprovalGrant)

namespace InMemoryApprovalStore

/-- What `create` checks before it looks anything up. -/
def createChecks (principal : Principal) (approval : PendingApproval) : Except PyError Unit := do
  requireTrustedPrincipal principal
  InMemoryOutbox.require
    (approval.tenantId = principal.tenantId && approval.principalId = principal.principalId)
    (.assistant .permissionDenied "approval principal mismatch" (some principal.tenantId))
  let tier ← PermissionTier.parse approval.tier
  InMemoryOutbox.require (PermissionTier.P3.rank ≤ tier.rank)
    (.assistant .validationFailed "approval requests are only valid for P3+ actions"
      (some principal.tenantId))

variable {s s' : InMemoryApprovalStore} {principal : Principal} {approval : PendingApproval}

theorem createChecks_eq_ok (h : createChecks principal approval = .ok ()) :
    approval.tenantId = principal.tenantId ∧ approval.principalId = principal.principalId := by
  unfold createChecks at h
  obtain ⟨_, -, h⟩ := except_bind_eq_ok.mp h
  obtain ⟨_, hmatch, -⟩ := except_bind_eq_ok.mp h
  simp only [InMemoryOutbox.require, Bool.and_eq_true, decide_eq_true_eq] at hmatch
  split_ifs at hmatch with hp
  exact hp

/-! ## What one call can do -/

/-- The record of a new key, in all three maps. -/
def written (platform : Platform) (s : InMemoryApprovalStore) (a : PendingApproval) :
    InMemoryApprovalStore where
  approvalsById := s.approvalsById.set (a.tenantId, a.approvalId) a
  approvalIdByKey := s.approvalIdByKey.set a.approvalKey a.approvalId
  fingerprints := s.fingerprints.set (a.tenantId, a.approvalId) (a.hash platform)

/-- `create` wrote nothing, or passed its checks for a new key and wrote the record. -/
theorem create_cases {r : Except PyError PendingApproval}
    (h : create platform principal approval s = (r, s')) :
    (s' = s ∧ (createChecks principal approval = .ok () →
        s.approvalIdByKey.get? approval.approvalKey ≠ none)) ∨
      (createChecks principal approval = .ok () ∧
        s.approvalIdByKey.get? approval.approvalKey = none ∧ r = .ok approval ∧
        s' = s.written platform approval) := by
  unfold create at h
  rcases Op.ofExcept_bind_cases h with ⟨e, htr, ho⟩ | ⟨_, htr, h⟩
  · cases ho
    exact .inl ⟨rfl, fun hc => by simp [createChecks, htr] at hc⟩
  rcases Op.ofExcept_bind_cases h with ⟨e, hmatch, ho⟩ | ⟨_, hmatch, h⟩
  · cases ho
    exact .inl ⟨rfl, fun hc => by simp [createChecks, htr, hmatch] at hc⟩
  rcases Op.ofExcept_bind_cases h with ⟨e, htier, ho⟩ | ⟨tier, htier, h⟩
  · cases ho
    exact .inl ⟨rfl, fun hc => by simp [createChecks, htr, hmatch, htier] at hc⟩
  rcases Op.ofExcept_bind_cases h with ⟨e, hrank, ho⟩ | ⟨_, hrank, h⟩
  · cases ho
    exact .inl ⟨rfl, fun hc => by simp [createChecks, htr, hmatch, htier, hrank] at hc⟩
  have hchecks : createChecks principal approval = .ok () := by
    simp [createChecks, htr, hmatch, htier, hrank]
  obtain ⟨ht, hp⟩ := createChecks_eq_ok hchecks
  have hkey : approval.approvalKey = (principal.tenantId, principal.principalId,
      approval.workflowKind, approval.idempotencyKey) := by simp [PendingApproval.approvalKey, ht, hp]
  rw [Op.get_bind, ← hkey] at h
  cases hid : s.approvalIdByKey.get? approval.approvalKey with
  | some existingId =>
    refine .inl ⟨?_, by simp⟩
    simp only [hid] at h
    cases hf : s.fingerprints.get? (principal.tenantId, existingId) with
    | none => simp only [hf] at h; cases h; rfl
    | some stored =>
      cases ha : s.approvalsById.get? (principal.tenantId, existingId) with
      | none => simp only [hf, ha] at h; cases h; rfl
      | some existing =>
        simp only [hf, ha] at h
        split_ifs at h
        · cases h; rfl
        · cases h; rfl
  | none =>
    simp only [hid] at h
    rw [Op.modify_bind] at h
    cases h
    exact .inr ⟨hchecks, rfl, rfl, by simp [written, ht]⟩

/-- A call that finds a record by its identifier either writes nothing or a copy of the record with
another status. -/
def Restates (s s' : InMemoryApprovalStore) : Prop :=
  s' = s ∨ ∃ k a status now, s.approvalsById.get? k = some a ∧
    s' = s.setApproval k (a.withStatus status now)

theorem require_cases {approvalId : String} {r : Except PyError PendingApproval}
    (h : require principal approvalId s = (r, s')) : s' = s ∧ ∀ a, r = .ok a →
      s.approvalsById.get? (principal.tenantId, approvalId) = some a := by
  unfold require get at h
  cases htr : requireTrustedPrincipal principal with
  | error e =>
    rw [Op.bind_error (t := s) (e := e) (by rw [htr]; rfl)] at h
    cases h
    simp
  | ok u =>
    cases hk : s.approvalsById.get? (principal.tenantId, approvalId) with
    | none =>
      rw [Op.bind_ok (t := s) (a := none) (by rw [htr, Op.ofExcept_ok_bind, Op.get_bind, hk]; rfl)] at h
      cases h
      simp
    | some a =>
      by_cases hp : a.principalId = principal.principalId
      · rw [Op.bind_ok (t := s) (a := some a) (by
          rw [htr, Op.ofExcept_ok_bind, Op.get_bind, hk]; simp [hp])] at h
        cases h
        simp
      · rw [Op.bind_ok (t := s) (a := none) (by
          rw [htr, Op.ofExcept_ok_bind, Op.get_bind, hk]; simp [hp])] at h
        cases h
        simp

theorem markApproved_restates {approvalId : String} {now : Instant}
    {r : Except PyError PendingApproval} (h : markApproved principal approvalId now s = (r, s')) :
    Restates s s' := by
  unfold markApproved at h
  rcases hreq : require principal approvalId s with ⟨_ | a, t⟩
  · rw [Op.bind_error hreq] at h
    cases h
    exact .inl (require_cases hreq).1
  · obtain ⟨rfl, hget⟩ := require_cases hreq
    rw [Op.bind_ok hreq] at h
    split_ifs at h with hpending
    · cases h
      exact .inl rfl
    · rw [Op.modify_bind] at h
      cases h
      exact .inr ⟨_, a, .approved, now, hget a rfl, rfl⟩

theorem approve_restates {approvalId : String} {now : Instant} {r : Except PyError ApprovalGrant}
    (h : approve platform principal approvalId now s = (r, s')) : Restates s s' := by
  unfold approve at h
  rcases hreq : require principal approvalId s with ⟨_ | a, t⟩
  · rw [Op.bind_error hreq] at h
    cases h
    exact .inl (require_cases hreq).1
  obtain ⟨rfl, hget⟩ := require_cases hreq
  rw [Op.bind_ok hreq] at h
  by_cases hcancelled : a.status = .cancelled
  · rw [if_pos hcancelled] at h
    cases h
    exact .inl rfl
  rw [if_neg hcancelled] at h
  rcases Op.ofExcept_bind_cases h with ⟨e, -, ho⟩ | ⟨tier, -, h⟩
  · cases ho
    exact .inl rfl
  rcases Op.ofExcept_bind_cases h with ⟨e, -, ho⟩ | ⟨_, -, h⟩
  · cases ho
    exact .inl rfl
  split_ifs at h with hpending
  · rcases hmark : markApproved principal approvalId now t with ⟨_ | b, u⟩
    · rw [Op.bind_error hmark] at h
      cases h
      exact markApproved_restates hmark
    · rw [Op.bind_ok hmark] at h
      cases h
      exact markApproved_restates hmark
  · cases h
    exact .inl rfl

theorem cancel_restates {approvalId : String} {now : Instant} {r : Except PyError PendingApproval}
    (h : cancel principal approvalId now s = (r, s')) : Restates s s' := by
  unfold cancel at h
  rcases hreq : require principal approvalId s with ⟨_ | a, t⟩
  · rw [Op.bind_error hreq] at h
    cases h
    exact .inl (require_cases hreq).1
  obtain ⟨rfl, hget⟩ := require_cases hreq
  rw [Op.bind_ok hreq] at h
  cases hstatus : a.status with
  | approved => simp only [hstatus] at h; cases h; exact .inl rfl
  | cancelled => simp only [hstatus] at h; cases h; exact .inl rfl
  | pending =>
    simp only [hstatus] at h
    rw [Op.modify_bind] at h
    cases h
    exact .inr ⟨_, a, .cancelled, now, hget a rfl, rfl⟩

/-! ## The maps agree -/

/-- Every key leads to a record that has exactly this key, and every record is what its key leads to. -/
structure Coherent (s : InMemoryApprovalStore) : Prop where
  pointsTo : ∀ key id, s.approvalIdByKey.get? key = some id →
    ∃ a, s.approvalsById.get? (key.1, id) = some a ∧ a.approvalKey = key
  pointed : ∀ k a, s.approvalsById.get? k = some a →
    a.tenantId = k.1 ∧ s.approvalIdByKey.get? a.approvalKey = some k.2

theorem Coherent.restates (h : s.Coherent) (hs : Restates s s') : s'.Coherent := by
  obtain rfl | ⟨k, a, status, now, hget, rfl⟩ := hs
  · exact h
  refine ⟨fun key id hkey => ?_, fun j b hj => ?_⟩
  · obtain ⟨b, hb, hbkey⟩ := h.pointsTo key id hkey
    simp only [setApproval, Dict.get?_set]
    split_ifs with hjk
    · rw [hjk] at hb
      cases hget.symm.trans hb
      exact ⟨_, rfl, hbkey⟩
    · exact ⟨b, hb, hbkey⟩
  · simp only [setApproval, Dict.get?_set] at hj
    split_ifs at hj with hjk
    · cases hj
      rw [hjk]
      exact h.pointed k a hget
    · exact h.pointed j b hj

theorem Coherent.written (h : s.Coherent) (hkey : s.approvalIdByKey.get? approval.approvalKey = none)
    (hid : s.approvalsById.get? (approval.tenantId, approval.approvalId) = none) :
    (s.written platform approval).Coherent := by
  refine ⟨fun key id hk => ?_, fun k a ha => ?_⟩
  · simp only [InMemoryApprovalStore.written, Dict.get?_set] at hk ⊢
    by_cases hkk : key = approval.approvalKey
    · subst hkk
      simp only [if_true, Option.some.injEq] at hk
      subst hk
      exact ⟨approval, by simp [PendingApproval.approvalKey], rfl⟩
    · rw [if_neg hkk] at hk
      obtain ⟨b, hb, hbkey⟩ := h.pointsTo key id hk
      refine ⟨b, ?_, hbkey⟩
      rw [if_neg]
      · exact hb
      · intro he
        rw [he] at hb
        cases hid.symm.trans hb
  · simp only [InMemoryApprovalStore.written, Dict.get?_set] at ha ⊢
    split_ifs at ha with hk
    · cases ha
      rw [hk]
      simp
    · obtain ⟨ht, hold⟩ := h.pointed k a ha
      refine ⟨ht, ?_⟩
      rw [if_neg]
      · exact hold
      · intro he
        rw [he] at hold
        cases hkey.symm.trans hold

/-- Replacing the record of another key leaves that key behind. -/
theorem Coherent.not_written (h : s.Coherent)
    (hkey : s.approvalIdByKey.get? approval.approvalKey = none) {old : PendingApproval}
    (hid : s.approvalsById.get? (approval.tenantId, approval.approvalId) = some old) :
    ¬ (s.written platform approval).Coherent := by
  intro hw
  obtain ⟨ht, hold⟩ := h.pointed _ old hid
  have hne : old.approvalKey ≠ approval.approvalKey := by
    intro he
    rw [he] at hold
    cases hkey.symm.trans hold
  have hstill : (s.written platform approval).approvalIdByKey.get? old.approvalKey =
      some approval.approvalId := by
    simpa [InMemoryApprovalStore.written, hne] using hold
  obtain ⟨a, ha, hak⟩ := hw.pointsTo _ _ hstill
  have ht' : old.approvalKey.1 = approval.tenantId := ht
  rw [ht'] at ha
  simp only [InMemoryApprovalStore.written, Dict.get?_set_self, Option.some.injEq] at ha
  exact hne (by rw [← hak, ha])

end InMemoryApprovalStore

/-! ## Histories -/

namespace ApprovalCall

open InMemoryApprovalStore

variable {s : InMemoryApprovalStore}

def run (platform : Platform) : ApprovalCall → InMemoryApprovalStore.Method ApprovalAnswer
  | create principal approval => do
    let record ← InMemoryApprovalStore.create platform principal approval
    return .record record
  | markApproved principal approvalId now => do
    let record ← InMemoryApprovalStore.markApproved principal approvalId now
    return .record record
  | approve principal approvalId now => do
    let grant ← InMemoryApprovalStore.approve platform principal approvalId now
    return .grant grant
  | cancel principal approvalId now => do
    let record ← InMemoryApprovalStore.cancel principal approvalId now
    return .record record
  | reject principal approvalId now => do
    let record ← InMemoryApprovalStore.reject principal approvalId now
    return .record record

/-- A create that passes its checks, for a new key, under an identifier its tenant already has. -/
def Overwrites (s : InMemoryApprovalStore) : ApprovalCall → Prop
  | create principal approval => createChecks principal approval = .ok () ∧
      s.approvalIdByKey.get? approval.approvalKey = none ∧
      s.approvalsById.get? (approval.tenantId, approval.approvalId) ≠ none
  | _ => False

/-- After the call the maps agree, and a create left every stored record as it was. -/
def Keeps (platform : Platform) (s : InMemoryApprovalStore) (c : ApprovalCall) : Prop :=
  (c.run platform s).2.Coherent ∧ ∀ principal approval, c = create principal approval →
    ∀ k a, s.approvalsById.get? k = some a → (c.run platform s).2.approvalsById.get? k = some a

theorem run_snd {α : Type} {x : InMemoryApprovalStore.Method α} (f : α → ApprovalAnswer) :
    ((do let a ← x; return f a : InMemoryApprovalStore.Method ApprovalAnswer) s).2 = (x s).2 := by
  rw [Op.bind_apply]
  rcases x s with ⟨_ | a, t⟩ <;> rfl

/-- One call keeps agreeing maps exactly when it overwrites nothing. -/
theorem keeps_iff (c : ApprovalCall) (h : s.Coherent) : c.Keeps platform s ↔ ¬ c.Overwrites s := by
  cases c with
  | create principal approval =>
    have hsnd : (run platform (create principal approval) s).2 =
        (InMemoryApprovalStore.create platform principal approval s).2 := run_snd _
    rcases hrun : InMemoryApprovalStore.create platform principal approval s with ⟨r, t⟩
    rw [hrun] at hsnd
    obtain ⟨hs', hchecks⟩ | ⟨hchecks, hkey, -, hs'⟩ := create_cases hrun
    · refine ⟨fun _ ⟨hok, hnone, _⟩ => hchecks hok hnone, fun _ => ?_⟩
      rw [Keeps, hsnd, hs']
      exact ⟨h, fun _ _ _ k a ha => ha⟩
    · constructor
      · rintro ⟨hkeeps, -⟩ ⟨-, -, hid⟩
        obtain ⟨old, hold⟩ := Option.ne_none_iff_exists'.mp hid
        rw [hsnd, hs'] at hkeeps
        exact h.not_written hkey hold hkeeps
      · intro hnot
        have hid : s.approvalsById.get? (approval.tenantId, approval.approvalId) = none := by
          by_contra hid
          exact hnot ⟨hchecks, hkey, hid⟩
        rw [Keeps, hsnd, hs']
        refine ⟨h.written hkey hid, fun _ _ _ k a ha => ?_⟩
        have hne : k ≠ (approval.tenantId, approval.approvalId) := by
          rintro rfl
          cases hid.symm.trans ha
        simpa [written, hne] using ha
  | markApproved principal approvalId now =>
    refine iff_of_true ⟨?_, by simp⟩ id
    rw [run, run_snd]
    exact h.restates (markApproved_restates rfl)
  | approve principal approvalId now =>
    refine iff_of_true ⟨?_, by simp⟩ id
    rw [run, run_snd]
    exact h.restates (approve_restates rfl)
  | cancel principal approvalId now =>
    refine iff_of_true ⟨?_, by simp⟩ id
    rw [run, run_snd]
    exact h.restates (cancel_restates rfl)
  | reject principal approvalId now =>
    refine iff_of_true ⟨?_, by simp⟩ id
    rw [run, run_snd]
    exact h.restates (cancel_restates rfl)

theorem coherent_empty : InMemoryApprovalStore.empty.Coherent :=
  ⟨fun _ _ h => (by cases h), fun _ _ h => (by cases h)⟩

/-- Along any history of calls, the maps agree after every call and no create changes a stored record,
exactly when no create for a new key uses an identifier its tenant already has. -/
theorem records_kept_iff (calls : List ApprovalCall) :
    Along (run platform) (fun c s => c.Keeps platform s) .empty calls ↔
      Along (run platform) (fun c s => ¬ c.Overwrites s) .empty calls :=
  along_iff _ (fun c _ h => c.keeps_iff h) (fun _ _ _ hkeeps => hkeeps.1) coherent_empty calls

/-! ### One identifier for two keys -/

def sampleApproval (idempotencyKey : String) : PendingApproval where
  approvalId := "ap_0123456789"
  tenantId := "tenant-1"
  principalId := "user-1"
  action := "calendar.create_event"
  resource := idempotencyKey
  tier := "P3"
  workflowKind := "reminder.create"
  messageId := "message-1"
  sourceEventId := "event-1"
  conversationId := "chat-1"
  channel := "telegram"
  recipient := "chat-1"
  requestText := "Call home"
  requestNow := ⟨0, Nat.zero_le _⟩
  timezone := "UTC"
  idempotencyKey := idempotencyKey
  payloadFingerprint := "32e80655cc29862cfaff8f8cde5220c5708cf5fe618369950d2cc5ed4b9cc890"
  status := .pending
  createdAt := ⟨0, Nat.zero_le _⟩
  updatedAt := none

def approvalPlatform : Platform := .ofTable
  [(jsonText (sampleApproval "key-1").document,
      .ofNat 0x5a767892928de21d3936623923010cbe498902621ae5d0c788e8a770f4d5d27c),
    (jsonText (sampleApproval "key-2").document,
      .ofNat 0xbcd10ec18585ac999f3891d29c5cb9d3593bf2f440833a921bf7177d62f92c61)]

def clashingCreates : List ApprovalCall :=
  [.create .sample (sampleApproval "key-1"), .create .sample (sampleApproval "key-2")]

/-- The record of the first key is gone, and its key leads to the record of the second. -/
theorem second_create_overwrites :
    ¬ Along (run approvalPlatform) (fun c s => c.Keeps approvalPlatform s) .empty
      clashingCreates := by
  rintro ⟨-, ⟨coherent, -⟩, -⟩
  have hkey : (after (run approvalPlatform) .empty clashingCreates).approvalIdByKey.get?
      (sampleApproval "key-1").approvalKey = some "ap_0123456789" := rfl
  obtain ⟨a, ha, hak⟩ := coherent.pointsTo _ _ hkey
  have hsecond : (after (run approvalPlatform) .empty clashingCreates).approvalsById.get?
      ("tenant-1", "ap_0123456789") = some (sampleApproval "key-2") := rfl
  cases hsecond.symm.trans ha
  exact absurd hak (by decide)

end ApprovalCall

end PersonalAssistant
