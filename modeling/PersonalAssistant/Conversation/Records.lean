import PersonalAssistant.Conversation.Calls
import PersonalAssistant.Stores.ApprovalRecords

/-!
# Records of a conversation

The approval records the service keeps are named after the tenant, the principal and the idempotency key
they are for. As long as those names differ no record is replaced; a pending record is decided once, and
a decided one stays as it is.
-/
namespace PersonalAssistant

open Lib InMemoryOutbox ConversationCommandService

variable {platform : Platform} {principal : Principal}

/-! ## Decisions -/

/-- The record is the same, or it was pending and has been decided. -/
def PendingApproval.Decided (a a' : PendingApproval) : Prop :=
  a' = a ∨ (a.status = .pending ∧ ∃ status now, status ≠ .pending ∧ a' = a.withStatus status now)

namespace PendingApproval

variable {a a' a'' : PendingApproval}

theorem Decided.refl (a : PendingApproval) : Decided a a := .inl rfl

theorem Decided.trans (h : Decided a a') (g : Decided a' a'') : Decided a a'' := by
  obtain rfl | ⟨hpending, status, now, hne, rfl⟩ := h
  · exact g
  · obtain rfl | ⟨hpending', -⟩ := g
    · exact .inr ⟨hpending, status, now, hne, rfl⟩
    · exact absurd hpending' hne

/-- A decision is final. -/
theorem Decided.eq_of_ne (h : Decided a a') (hne : a.status ≠ .pending) : a' = a :=
  h.resolve_right fun hpending => hne hpending.1

theorem Decided.idempotencyKey (h : Decided a a') : a'.idempotencyKey = a.idempotencyKey := by
  obtain rfl | ⟨-, status, now, -, rfl⟩ := h <;> rfl

theorem Decided.payloadFingerprint (h : Decided a a') : a'.payloadFingerprint = a.payloadFingerprint := by
  obtain rfl | ⟨-, status, now, -, rfl⟩ := h <;> rfl

theorem Decided.principalId (h : Decided a a') : a'.principalId = a.principalId := by
  obtain rfl | ⟨-, status, now, -, rfl⟩ := h <;> rfl

end PendingApproval

namespace InMemoryApprovalStore

open PendingApproval

variable {s s' t : InMemoryApprovalStore} {id : String} {now : Instant}

/-- Every record is still there, as it was or decided. -/
def Lasting (s s' : InMemoryApprovalStore) : Prop :=
  ∀ k a, s.approvalsById.get? k = some a → ∃ a', s'.approvalsById.get? k = some a' ∧ Decided a a'

theorem Lasting.refl (s : InMemoryApprovalStore) : Lasting s s := fun _ a h => ⟨a, h, .refl a⟩

theorem Lasting.trans (h : Lasting s t) (g : Lasting t s') : Lasting s s' := by
  intro k a ha
  obtain ⟨a', ha', hdecided⟩ := h k a ha
  obtain ⟨a'', ha'', hdecided'⟩ := g k a' ha'
  exact ⟨a'', ha'', hdecided.trans hdecided'⟩

/-- One pending record was decided. -/
def Decides (k : Key) (status : PendingApprovalStatus) (s s' : InMemoryApprovalStore) : Prop :=
  ∃ a now, s.approvalsById.get? k = some a ∧ a.status = .pending ∧ s' = s.setApproval k (a.withStatus status now)

theorem Decides.lasting {k : Key} {status : PendingApprovalStatus} (h : Decides k status s s')
    (hne : status ≠ .pending) : Lasting s s' := by
  obtain ⟨a, now, hget, hpending, rfl⟩ := h
  intro j b hb
  by_cases hj : j = k
  · subst hj
    cases hget.symm.trans hb
    exact ⟨_, Dict.get?_set_self .., .inr ⟨hpending, status, now, hne, rfl⟩⟩
  · exact ⟨b, (Dict.get?_set_of_ne _ _ hj).trans hb, .refl b⟩

theorem Decides.restates {k : Key} {status : PendingApprovalStatus} (h : Decides k status s s') :
    Restates s s' := by
  obtain ⟨a, now, hget, -, rfl⟩ := h
  exact .inr ⟨k, a, status, now, hget, rfl⟩

theorem get_cases {r : Except PyError (Option PendingApproval)} (h : get principal id s = (r, s')) :
    s' = s ∧ ∀ a, r = .ok (some a) →
      s.approvalsById.get? (principal.tenantId, id) = some a ∧ a.principalId = principal.principalId := by
  unfold get at h
  obtain ⟨e, -, ho⟩ | ⟨_, -, h⟩ := Op.ofExcept_bind_cases h
  · cases ho
    exact ⟨rfl, by simp⟩
  rw [Op.get_bind] at h
  cases hk : s.approvalsById.get? (principal.tenantId, id) with
  | none =>
    simp only [hk] at h
    cases h
    exact ⟨rfl, by simp⟩
  | some a =>
    simp only [hk] at h
    split_ifs at h with hp
    · cases h
      exact ⟨rfl, by simp⟩
    · cases h
      exact ⟨rfl, fun b hb => by cases hb; exact ⟨rfl, not_not.mp hp⟩⟩

theorem markApproved_cases {a : PendingApproval} {r : Except PyError PendingApproval}
    (hget : s.approvalsById.get? (principal.tenantId, id) = some a) (hpending : a.status = .pending)
    (h : markApproved principal id now s = (r, s')) :
    s' = s ∧ (∃ e, r = .error e) ∨ Decides (principal.tenantId, id) .approved s s' := by
  unfold markApproved at h
  rcases hreq : require principal id s with ⟨e | b, t⟩
  · rw [Op.bind_error hreq] at h
    cases h
    exact .inl ⟨(require_cases hreq).1, e, rfl⟩
  · obtain ⟨rfl, hb⟩ := require_cases hreq
    cases hget.symm.trans (hb b rfl)
    rw [Op.bind_ok hreq, if_neg (not_not.mpr hpending), Op.modify_bind] at h
    cases h
    exact .inr ⟨a, now, hget, hpending, rfl⟩

/-- `approve` changes nothing or approves a pending record; a grant is for an approved record. -/
theorem approve_cases {r : Except PyError ApprovalGrant} (h : approve platform principal id now s = (r, s')) :
    (s' = s ∨ Decides (principal.tenantId, id) .approved s s') ∧
      ∀ grant, r = .ok grant →
        ∃ a, s'.approvalsById.get? (principal.tenantId, id) = some a ∧ a.status = .approved := by
  unfold approve at h
  rcases hreq : require principal id s with ⟨e | a, t⟩
  · rw [Op.bind_error hreq] at h
    cases h
    exact ⟨.inl (require_cases hreq).1, by simp⟩
  obtain ⟨rfl, hget⟩ := require_cases hreq
  have hget := hget a rfl
  rw [Op.bind_ok hreq] at h
  by_cases hcancelled : a.status = .cancelled
  · rw [if_pos hcancelled] at h
    cases h
    exact ⟨.inl rfl, by simp⟩
  rw [if_neg hcancelled] at h
  rcases Op.ofExcept_bind_cases h with ⟨e, -, ho⟩ | ⟨tier, -, h⟩
  · cases ho
    exact ⟨.inl rfl, by simp⟩
  rcases Op.ofExcept_bind_cases h with ⟨e, -, ho⟩ | ⟨_, -, h⟩
  · cases ho
    exact ⟨.inl rfl, by simp⟩
  split_ifs at h with hpending
  · rcases hmark : markApproved principal id now t with ⟨e | b, u⟩
    · rw [Op.bind_error hmark] at h
      cases h
      exact ⟨(markApproved_cases hget hpending hmark).imp (fun h => h.1) (fun h => h), by simp⟩
    · rw [Op.bind_ok hmark] at h
      cases h
      obtain ⟨-, e, he⟩ | hdecides := markApproved_cases hget hpending hmark
      · cases he
      · refine ⟨.inr hdecides, fun _ _ => ?_⟩
        obtain ⟨c, now', -, -, rfl⟩ := hdecides
        exact ⟨_, Dict.get?_set_self .., rfl⟩
  · cases h
    refine ⟨.inl rfl, fun _ _ => ⟨a, hget, ?_⟩⟩
    cases hstatus : a.status with
    | pending => exact absurd hstatus hpending
    | approved => rfl
    | cancelled => exact absurd hstatus hcancelled

theorem cancel_cases {r : Except PyError PendingApproval} (h : cancel principal id now s = (r, s')) :
    s' = s ∨ Decides (principal.tenantId, id) .cancelled s s' := by
  unfold cancel at h
  rcases hreq : require principal id s with ⟨_ | a, t⟩
  · rw [Op.bind_error hreq] at h
    cases h
    exact .inl (require_cases hreq).1
  obtain ⟨rfl, hget⟩ := require_cases hreq
  rw [Op.bind_ok hreq] at h
  cases hstatus : a.status with
  | approved => simp only [hstatus] at h; cases h; exact .inl rfl
  | cancelled => simp only [hstatus] at h; cases h; exact .inl rfl
  | pending =>
    simp only [hstatus] at h
    rw [Op.modify_bind] at h
    cases h
    exact .inr ⟨a, now, hget a rfl, hstatus, rfl⟩

/-- A pending record is cancelled. -/
theorem cancel_of_pending {a : PendingApproval} (trusted : requireTrustedPrincipal principal = .ok ())
    (hget : s.approvalsById.get? (principal.tenantId, id) = some a)
    (hprincipal : a.principalId = principal.principalId) (hpending : a.status = .pending) :
    reject principal id now s = (.ok (a.withStatus .cancelled now),
      s.setApproval (principal.tenantId, id) (a.withStatus .cancelled now)) := by
  have hfound : get principal id s = (.ok (some a), s) := by
    rw [get, trusted, Op.ofExcept_ok_bind, Op.get_bind, hget]
    simp [hprincipal]
  have hrequire : require principal id s = (.ok a, s) := by
    rw [require, Op.bind_ok hfound]
    rfl
  rw [reject, cancel, Op.bind_ok hrequire]
  simp only [hpending, Op.modify_bind]
  rfl

end InMemoryApprovalStore

/-! ## Names of records -/

/-- A tenant, a principal and an idempotency key. -/
abbrev ApprovalSlot := String × String × String

/-- The names of the records for `U` differ within a tenant. -/
def ApprovalIdsDistinct (platform : Platform) (U : Set ApprovalSlot) : Prop :=
  Set.InjOn (fun x : ApprovalSlot => (x.1, approvalIdOf platform x.1 x.2.1 x.2.2)) U

/-- A record the service made for an identity of `D`. -/
structure RecordFor (platform : Platform) (D : Set ReminderIdempotencyIdentity) (U : Set ApprovalSlot)
    (k : Key) (a : PendingApproval) : Prop where
  key : k = (a.tenantId, a.approvalId)
  named : a.approvalId = approvalIdOf platform a.tenantId a.principalId a.idempotencyKey
  slot : (a.tenantId, a.principalId, a.idempotencyKey) ∈ U
  kind : a.workflowKind = "reminder.create"
  rebuilt : ∀ (p : Principal) grant request i, p.tenantId = a.tenantId → p.principalId = a.principalId →
    approvedRequest a grant = .ok request → reminderIdempotency platform p request = .ok i →
    i.identity ∈ D ∧ i.key platform = a.idempotencyKey ∧ i.payloadFingerprint platform = a.payloadFingerprint

structure Recorded (platform : Platform) (D : Set ReminderIdempotencyIdentity) (U : Set ApprovalSlot)
    (s : InMemoryApprovalStore) : Prop where
  coherent : s.Coherent
  records : ∀ k a, s.approvalsById.get? k = some a → RecordFor platform D U k a

namespace Recorded

open InMemoryApprovalStore

variable {D : Set ReminderIdempotencyIdentity} {U : Set ApprovalSlot} {s s' : InMemoryApprovalStore}

theorem empty : Recorded platform D U .empty := ⟨ApprovalCall.coherent_empty, fun k a h => by cases h⟩

theorem decides {k : Key} {status : PendingApprovalStatus} (h : Recorded platform D U s)
    (hs : Decides k status s s') : Recorded platform D U s' := by
  refine ⟨h.coherent.restates hs.restates, fun j b hb => ?_⟩
  obtain ⟨a, now, hget, -, rfl⟩ := hs
  simp only [setApproval, Dict.get?_set] at hb
  split_ifs at hb with hj
  · cases hb
    obtain ⟨h₁, h₂, h₃, h₄, h₅⟩ := h.records k a hget
    exact hj ▸ ⟨h₁, h₂, h₃, h₄, h₅⟩
  · exact h.records j b hb

/-- A record is created, or was there. -/
theorem create {a : PendingApproval} {r : Except PyError PendingApproval}
    (distinct : ApprovalIdsDistinct platform U) (h : Recorded platform D U s)
    (ha : RecordFor platform D U (a.tenantId, a.approvalId) a)
    (hrun : InMemoryApprovalStore.create platform principal a s = (r, s')) :
    Recorded platform D U s' ∧ ∀ k b, s.approvalsById.get? k = some b → s'.approvalsById.get? k = some b := by
  obtain ⟨rfl, -⟩ | ⟨-, hnone, -, rfl⟩ := create_cases hrun
  · exact ⟨h, fun _ _ hb => hb⟩
  · have habsent : s.approvalsById.get? (a.tenantId, a.approvalId) = none := by
      cases hold : s.approvalsById.get? (a.tenantId, a.approvalId) with
      | none => rfl
      | some old =>
        -- a record of this name is one for the same slot, and the index would lead to it
        have hrecord := h.records _ old hold
        have hname : ((old.tenantId, approvalIdOf platform old.tenantId old.principalId old.idempotencyKey) :
            Key) = (a.tenantId, approvalIdOf platform a.tenantId a.principalId a.idempotencyKey) := by
          rw [← hrecord.named, ← ha.named]
          exact hrecord.key.symm
        have hslot := distinct hrecord.slot ha.slot hname
        have hkey : old.approvalKey = a.approvalKey := by
          simp only [Prod.mk.injEq] at hslot
          simp [PendingApproval.approvalKey, hslot, hrecord.kind, ha.kind]
        have hpointed := (h.coherent.pointed _ old hold).2
        rw [hkey, hnone] at hpointed
        cases hpointed
    refine ⟨⟨h.coherent.written hnone habsent, fun k b hb => ?_⟩, fun k b hb => ?_⟩
    · simp only [written, Dict.get?_set] at hb
      split_ifs at hb with hk
      · cases hb
        exact hk ▸ ha
      · exact h.records k b hb
    · simp only [written]
      rw [Dict.get?_set_of_ne]
      · exact hb
      · rintro rfl
        cases habsent.symm.trans hb

/-- What `create` returns is stored, and is for the same principal and key. -/
theorem created {approval stored : PendingApproval} (h : Recorded platform D U s)
    (hrun : InMemoryApprovalStore.create platform principal approval s = (.ok stored, s')) :
    approval.principalId = principal.principalId ∧
      s'.approvalsById.get? (principal.tenantId, stored.approvalId) = some stored ∧
      stored.approvalKey = approval.approvalKey := by
  unfold InMemoryApprovalStore.create at hrun
  obtain ⟨_, htrusted, hrun⟩ := Op.ofExcept_bind_eq_ok hrun
  obtain ⟨_, hsame, hrun⟩ := Op.ofExcept_bind_eq_ok hrun
  obtain ⟨tier, -, hrun⟩ := Op.ofExcept_bind_eq_ok hrun
  obtain ⟨_, -, hrun⟩ := Op.ofExcept_bind_eq_ok hrun
  obtain ⟨htenant, hprincipal⟩ : approval.tenantId = principal.tenantId ∧
      approval.principalId = principal.principalId := by simpa using hsame
  have hkey : approval.approvalKey = (principal.tenantId, principal.principalId, approval.workflowKind,
      approval.idempotencyKey) := by simp [PendingApproval.approvalKey, htenant, hprincipal]
  rw [Op.get_bind, ← hkey] at hrun
  refine ⟨hprincipal, ?_⟩
  cases hid : s.approvalIdByKey.get? approval.approvalKey with
  | none =>
    simp only [hid] at hrun
    rw [Op.modify_bind] at hrun
    cases hrun
    exact ⟨Dict.get?_set_self .., rfl⟩
  | some existingId =>
    simp only [hid] at hrun
    obtain ⟨a, ha, hakey⟩ := h.coherent.pointsTo _ _ hid
    rw [show approval.approvalKey.1 = principal.tenantId from htenant] at ha
    cases hf : s.fingerprints.get? (principal.tenantId, existingId) with
    | none => simp only [hf] at hrun; cases hrun
    | some fingerprint =>
      simp only [hf, ha] at hrun
      split_ifs at hrun with hne
      · cases hrun
      · cases hrun
        obtain ⟨-, hname⟩ := Prod.ext_iff.mp (h.records _ stored ha).key
        obtain rfl : existingId = stored.approvalId := hname
        exact ⟨ha, hakey⟩

end Recorded

end PersonalAssistant
