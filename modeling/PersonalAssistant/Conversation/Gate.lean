import PersonalAssistant.Conversation.Requests

/-!
# The approval gate

Nothing is created for an idempotency key before the approval record of that key has been approved. The
invariant ties the completed workflow states to approved records; a turn keeps it because a transaction is
only opened with a grant, and a grant is only issued for an approved record.
-/
namespace PersonalAssistant

open Lib Program InMemoryOutbox ReminderIdempotencyIdentity ConversationCommandService

variable {platform : Platform} {principal : Principal} {D : Set ReminderIdempotencyIdentity}
  {U : Set ApprovalSlot} {s s' t : ConversationStores platform} {α β : Type}

/-- Some record of the tenant for this key is approved. -/
def InMemoryApprovalStore.ApprovedFor (s : InMemoryApprovalStore) (tenantId key : String) : Prop :=
  ∃ id a, s.approvalsById.get? (tenantId, id) = some a ∧ a.status = .approved ∧ a.idempotencyKey = key

namespace InMemoryApprovalStore

variable {s s' : InMemoryApprovalStore} {tenantId key : String}

theorem Lasting.approvedFor (h : Lasting s s') (g : s.ApprovedFor tenantId key) :
    s'.ApprovedFor tenantId key := by
  obtain ⟨id, a, hget, happroved, hkey⟩ := g
  obtain ⟨a', hget', hdecided⟩ := h _ a hget
  obtain rfl := hdecided.eq_of_ne (by simp [happroved])
  exact ⟨id, a', hget', happroved, hkey⟩

end InMemoryApprovalStore

/-- A block completes no state but the one of its key. -/
theorem ApprovedRun.completed_cases {run : ApprovedRun platform} {env : Surroundings}
    {s s' : ReminderStores platform} {r : Except PyError BlockResult} (proper : run.Proper D) (inv : s.EffectInv D) (h : run.Outcome env principal s r s') {k : Key}
    (hcomp : s'.states.IsCompleted k) :
    s.states.IsCompleted k ∨ k = (principal.tenantId, run.key) := by
  cases h with
  | aborted e => exact .inl hcomp
  | replayed register reply =>
    exact .inl (((inv.owned.states.register (by simp [proper.status]) register).2.1 k).mp hcomp)
  | clarified register fresh undated upsert =>
    obtain ⟨hkeyed, hsame, hkey, -⟩ := unfinished_of_register proper inv.owned.states register fresh
    obtain ⟨-, ⟨e, he, -⟩ | ⟨-, hiff⟩⟩ := hkeyed.upsert upsert
    · cases he
    · have hcomp' := (hiff k).mp hcomp
      split_ifs at hcomp' with hk
      · exact .inr (hk.trans (by rw [← hkey]; rfl))
      · exact .inl ((hsame k).mp hcomp')
  | created register fresh dated request_eq createEvent schedule created_eq append requested_eq add
      upsert =>
    have ho : run.Outcome env principal s _ _ := .created register fresh dated request_eq createEvent
      schedule created_eq append requested_eq add upsert
    obtain ⟨extraction, created, message, -, hc⟩ := ho.created_spec proper inv
    exact ((hc.states k).mp hcomp).symm

/-- Only a transaction completes a state: the one of its key. -/
theorem WorkflowCall.completed_cases {c : WorkflowCall platform} {r : c.Resp} {s s' : ReminderStores platform}
    (ok : c.Admissible D) (inv : s.EffectInv D) (h : c.Effect s r s')
    {tenantId key : String} (hcomp : s'.states.IsCompleted (tenantId, key)) :
    s.states.IsCompleted (tenantId, key) ∨
      ∃ p run, c = .transact p run ∧ tenantId = p.tenantId ∧ key = run.key := by
  cases c with
  | writeTrace => cases h; exact .inl hcomp
  | utcnow => cases h; exact .inl hcomp
  | uuid4 => cases h; exact .inl hcomp
  | complete => cases h; exact .inl hcomp
  | registerOrReplay principal state =>
    obtain ⟨-, rfl⟩ | ⟨now, h⟩ := h
    · exact .inl hcomp
    obtain ⟨states, hrun, rfl⟩ := Op.zoom_cases h
    have hs : state.status = .running := ok
    exact .inl (((inv.owned.states.register (by simp [hs]) hrun).2.1 _).mp hcomp)
  | getByIdempotencyKey principal key =>
    obtain ⟨-, rfl⟩ | h := h
    · exact .inl hcomp
    obtain ⟨states, hrun, rfl⟩ := Op.zoom_cases h
    rcases Op.ofExcept_bind_cases hrun with ⟨e, -, ho⟩ | ⟨_, -, ho⟩
    · cases ho; exact .inl hcomp
    · cases ho; exact .inl hcomp
  | upsert principal state =>
    obtain ⟨-, rfl⟩ | h := h
    · exact .inl hcomp
    obtain ⟨states, hrun, rfl⟩ := Op.zoom_cases h
    have hs : state.status = .waitingApproval := ok
    obtain ⟨-, ⟨e, -, rfl⟩ | ⟨-, hiff⟩⟩ := inv.owned.states.upsert hrun
    · exact .inl hcomp
    · have hcomp' := (hiff _).mp hcomp
      split_ifs at hcomp' with hk
      · simp [hs] at hcomp'
      · exact .inl hcomp'
  | transact principal run =>
    obtain ⟨env, h⟩ := h
    exact (ApprovedRun.completed_cases ok inv (ApprovedRun.outcome_of_begin h) hcomp).imp_right
      fun hk => ⟨principal, run, rfl, by simpa using hk⟩

/-! ## Invariant -/

/-- Effects are exactly-once, records are those the service made, and what is completed was approved. -/
structure Gated (platform : Platform) (D : Set ReminderIdempotencyIdentity) (U : Set ApprovalSlot)
    (s : ConversationStores platform) : Prop where
  effects : s.reminders.EffectInv D
  records : Recorded platform D U s.approvals
  completed : ∀ tenantId key, s.reminders.states.IsCompleted (tenantId, key) →
    s.approvals.ApprovedFor tenantId key

/-- Records last and completed effects stay. -/
structure Continues (D : Set ReminderIdempotencyIdentity) (s s' : ConversationStores platform) : Prop where
  records : s.approvals.Lasting s'.approvals
  effects : s.reminders.Persist D s'.reminders

theorem Continues.refl (s : ConversationStores platform) : Continues D s s := ⟨.refl _, .refl _⟩

theorem Continues.trans (h : Continues D s t) (g : Continues D t s') : Continues D s s' :=
  ⟨h.records.trans g.records, h.effects.trans g.effects⟩

namespace Gated

open InMemoryApprovalStore

/-- A call of the workflow keeps the invariant if its transactions are for approved keys. -/
theorem workflow {c : WorkflowCall platform} {r : c.Resp} (free : CollisionFree platform D)
    (ok : c.Admissible D)
    (approved : ∀ p run, c = .transact p run → s.approvals.ApprovedFor p.tenantId run.key)
    (inv : Gated platform D U s) (h : ConversationCall.Effect (.inl c) s r s') :
    Gated platform D U s' ∧ Continues D s s' := by
  obtain ⟨heffect, hsame⟩ := h
  obtain ⟨hinv, hpersist⟩ := WorkflowCall.effect_spec free ok inv.effects heffect
  refine ⟨⟨hinv, hsame ▸ inv.records, fun tenantId key hcomp => ?_⟩, hsame ▸ .refl _, hpersist⟩
  rw [hsame]
  obtain hold | ⟨p, run, rfl, rfl, rfl⟩ := WorkflowCall.completed_cases ok inv.effects heffect hcomp
  · exact inv.completed _ _ hold
  · exact approved p run rfl

/-- Records may be added and decided. -/
theorem records_of_lasting (inv : Gated platform D U s) (hrecords : Recorded platform D U s'.approvals)
    (lasting : s.approvals.Lasting s'.approvals) (same : s'.reminders = s.reminders) :
    Gated platform D U s' ∧ Continues D s s' := by
  refine ⟨⟨same ▸ inv.effects, hrecords, fun tenantId key hcomp => ?_⟩, lasting, same ▸ .refl _⟩
  exact lasting.approvedFor (inv.completed tenantId key (same ▸ hcomp))

theorem decides {k : Key} {status : PendingApprovalStatus} (inv : Gated platform D U s)
    (h : s'.approvals = s.approvals ∨ Decides k status s.approvals s'.approvals) (hne : status ≠ .pending)
    (same : s'.reminders = s.reminders) : Gated platform D U s' ∧ Continues D s s' := by
  obtain heq | hdecides := h
  · exact inv.records_of_lasting (heq ▸ inv.records) (heq ▸ .refl _) same
  · exact inv.records_of_lasting (inv.records.decides hdecides) (hdecides.lasting hne) same

theorem empty : Gated platform D U .empty where
  effects := ReminderRun.effectInv_empty
  records := .empty
  completed tenantId key h := by
    simp [ConversationStores.empty, ReminderStores.empty, InMemoryWorkflowStateStore.empty,
      InMemoryWorkflowStateStore.IsCompleted] at h

end Gated

/-! ## Calls that decide nothing -/

/-- A call that only reads. -/
def ServiceCall.ReadOnly : ServiceCall platform → Prop
  | createApproval .. | approve .. | reject .. => False
  | _ => True

open InMemoryApprovalStore in
theorem ServiceCall.same_of_readOnly {c : ServiceCall platform} {r : c.Resp} (readOnly : c.ReadOnly)
    (h : c.Effect s r s') : s'.approvals = s.approvals ∧ s'.reminders = s.reminders := by
  cases c with
  | createApproval => exact readOnly.elim
  | approve => exact readOnly.elim
  | reject => exact readOnly.elim
  | getApproval principal id =>
    obtain ⟨-, rfl⟩ | ⟨hget, hreminders⟩ := h
    · exact ⟨rfl, rfl⟩
    · exact ⟨(get_cases hget).1, hreminders⟩
  | listPending principal =>
    obtain ⟨-, rfl⟩ | ⟨hlist, hreminders⟩ := h
    · exact ⟨rfl, rfl⟩
    · refine ⟨?_, hreminders⟩
      rcases Op.ofExcept_bind_cases hlist with ⟨e, -, ho⟩ | ⟨_, -, ho⟩
      · exact congrArg Prod.snd ho
      · exact (congrArg Prod.snd ho).symm
  | listStates => obtain ⟨rfl, -⟩ := h; exact ⟨rfl, rfl⟩
  | listStored => obtain ⟨rfl, -⟩ := h; exact ⟨rfl, rfl⟩
  | listMessages => obtain ⟨rfl, -⟩ := h; exact ⟨rfl, rfl⟩
  | listEvents => obtain ⟨rfl, -⟩ := h; exact ⟨rfl, rfl⟩

/-- A call that changes nothing in the stores. -/
def ConversationCall.Idle : (conversationCalls platform).Call → Prop
  | .inl c => c.Still
  | .inr c => c.ReadOnly

theorem WorkflowCall.admissible_mono {D' : Set ReminderIdempotencyIdentity} {c : WorkflowCall platform}
    (h : c.Admissible D) (sub : ∀ d ∈ D, d ∈ D') : c.Admissible D' := by
  cases c with
  | transact principal run => exact ⟨sub _ h.1, h.2, h.3⟩
  | _ => exact h

theorem WorkflowCall.same_of_still {c : WorkflowCall platform} {r : c.Resp} {s s' : ReminderStores platform}
    (still : c.Still) (h : c.Effect s r s') : s' = s := by
  cases c with
  | registerOrReplay => exact still.elim
  | upsert => exact still.elim
  | transact => exact still.elim
  | getByIdempotencyKey principal key =>
    obtain ⟨-, rfl⟩ | h := h
    · rfl
    obtain ⟨states, hrun, rfl⟩ := Op.zoom_cases h
    rcases Op.ofExcept_bind_cases hrun with ⟨e, -, ho⟩ | ⟨_, -, ho⟩
    · cases ho; rfl
    · cases ho; rfl
  | _ => exact h

theorem ConversationCall.same_of_idle {c : (conversationCalls platform).Call}
    {r : (conversationCalls platform).Resp c} (idle : Idle c) (h : Effect c s r s') : s' = s := by
  rcases c with c | c
  · exact ConversationStores.ext (WorkflowCall.same_of_still idle h.1) h.2
  · have hsame := ServiceCall.same_of_readOnly idle h
    exact ConversationStores.ext hsame.2 hsame.1

theorem ConversationCall.idle_spec {c : (conversationCalls platform).Call}
    {r : (conversationCalls platform).Resp c} (idle : Idle c) (inv : Gated platform D U s)
    (h : Effect c s r s') : Gated platform D U s' ∧ Continues D s s' := by
  obtain rfl := same_of_idle idle h
  exact ⟨inv, .refl s'⟩

end PersonalAssistant
