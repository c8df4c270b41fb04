import PersonalAssistant.Conversation.Approved

/-!
# Who decides

One step of a turn changes an effect store or approves a record only if its message is an approval
command, and decides a record at all only if it is an approval or a cancellation. The answer of a language
model is a response of a call, so nothing it says is a grant.
-/
namespace PersonalAssistant

open Lib Program InMemoryOutbox

variable {platform : Platform} {principal : Principal}

namespace ReminderStores

/-- The stores of the effects are as they were. -/
structure SameEffects (s s' : ReminderStores platform) : Prop where
  calendar : s'.calendar = s.calendar
  scheduler : s'.scheduler = s.scheduler
  eventStore : s'.eventStore = s.eventStore
  outbox : s'.outbox = s.outbox

theorem SameEffects.refl (s : ReminderStores platform) : SameEffects s s := ⟨rfl, rfl, rfl, rfl⟩

end ReminderStores

open ReminderStores in
/-- Without a transaction only workflow states are written. -/
theorem WorkflowCall.quiet_effect {c : WorkflowCall platform} {r : c.Resp} {s s' : ReminderStores platform}
    (quiet : c.Quiet) (h : c.Effect s r s') : SameEffects s s' := by
  cases c with
  | writeTrace => cases h; exact .refl _
  | utcnow => cases h; exact .refl _
  | uuid4 => cases h; exact .refl _
  | complete => cases h; exact .refl _
  | registerOrReplay principal state =>
    obtain ⟨-, rfl⟩ | ⟨now, h⟩ := h
    · exact .refl _
    · obtain ⟨states, -, rfl⟩ := Op.zoom_cases h
      exact ⟨rfl, rfl, rfl, rfl⟩
  | getByIdempotencyKey principal key =>
    obtain ⟨-, rfl⟩ | h := h
    · exact .refl _
    · obtain ⟨states, -, rfl⟩ := Op.zoom_cases h
      exact ⟨rfl, rfl, rfl, rfl⟩
  | upsert principal state =>
    obtain ⟨-, rfl⟩ | h := h
    · exact .refl _
    · obtain ⟨states, -, rfl⟩ := Op.zoom_cases h
      exact ⟨rfl, rfl, rfl, rfl⟩
  | transact => exact quiet.elim

namespace ConversationCall

open InMemoryApprovalStore

variable {s s' : ConversationStores platform} {c : (conversationCalls platform).Call}
  {r : (conversationCalls platform).Resp c}

/-- Every record of this status was there before, as it is. -/
def NoneBecomes (status : PendingApprovalStatus) (s s' : InMemoryApprovalStore) : Prop :=
  ∀ k a, s'.approvalsById.get? k = some a → a.status = status → s.approvalsById.get? k = some a

theorem NoneBecomes.refl (status : PendingApprovalStatus) (s : InMemoryApprovalStore) :
    NoneBecomes status s s := fun _ _ h _ => h

theorem noneBecomes_set {s : InMemoryApprovalStore} {k : Key} {a : PendingApproval}
    {status : PendingApprovalStatus} (hne : a.status ≠ status) : NoneBecomes status s (s.setApproval k a) := by
  intro j b hb hstatus
  simp only [setApproval, Dict.get?_set] at hb
  split_ifs at hb with hj
  · cases hb
    exact absurd hstatus hne
  · exact hb

theorem noneBecomes_of_decides {s s' : InMemoryApprovalStore} {k : Key}
    {status status' : PendingApprovalStatus} (h : Decides k status s s') (hne : status ≠ status') :
    NoneBecomes status' s s' := by
  obtain ⟨a, now, -, -, rfl⟩ := h
  exact noneBecomes_set hne

theorem noneBecomes_of_create {s s' : InMemoryApprovalStore} {a : PendingApproval}
    {r : Except PyError PendingApproval} {status : PendingApprovalStatus}
    (h : InMemoryApprovalStore.create platform principal a s = (r, s')) (hne : a.status ≠ status) :
    NoneBecomes status s s' := by
  obtain ⟨rfl, -⟩ | ⟨-, -, -, rfl⟩ := create_cases h
  · exact .refl _ _
  · exact noneBecomes_set hne

/-- Neither effects nor decisions come from an undeciding call. -/
theorem undeciding_spec (ok : Undeciding c) (h : Effect c s r s') :
    s.reminders.SameEffects s'.reminders ∧
      ∀ status, status ≠ .pending → NoneBecomes status s.approvals s'.approvals := by
  rcases c with c | c
  · obtain ⟨heffect, hsame⟩ := h
    exact ⟨WorkflowCall.quiet_effect ok heffect, fun status _ => hsame ▸ .refl _ _⟩
  · have hread : c.ReadOnly → s.reminders.SameEffects s'.reminders ∧
        ∀ status, status ≠ .pending → NoneBecomes status s.approvals s'.approvals := by
      intro readOnly
      obtain ⟨happrovals, hreminders⟩ := ServiceCall.same_of_readOnly readOnly h
      exact ⟨hreminders ▸ .refl _, fun status _ => happrovals ▸ .refl _ _⟩
    cases c with
    | createApproval principal approval =>
      obtain ⟨-, rfl⟩ | ⟨hcreate, hreminders⟩ := h
      · exact ⟨.refl _, fun status _ => .refl _ _⟩
      · refine ⟨hreminders ▸ .refl _, fun status hne => noneBecomes_of_create hcreate ?_⟩
        rw [show approval.status = .pending from ok]
        exact hne.symm
    | _ => exact hread ok

/-- No effects and no approvals come from a call that grants nothing. -/
theorem grantless_spec (ok : Grantless c) (h : Effect c s r s') :
    s.reminders.SameEffects s'.reminders ∧ NoneBecomes .approved s.approvals s'.approvals := by
  have hundeciding : Undeciding c →
      s.reminders.SameEffects s'.reminders ∧ NoneBecomes .approved s.approvals s'.approvals :=
    fun hu => (undeciding_spec hu h).imp_right fun hnone => hnone .approved (by decide)
  rcases c with c | c
  · exact hundeciding ok
  · cases c with
    | reject principal id =>
      obtain ⟨-, rfl⟩ | ⟨now, hreject, hreminders⟩ := h
      · exact ⟨.refl _, .refl _ _⟩
      · refine ⟨hreminders ▸ .refl _, ?_⟩
        obtain heq | hdecides := cancel_cases hreject
        · exact heq ▸ .refl _ _
        · exact noneBecomes_of_decides hdecides (by decide)
    | _ => exact hundeciding ok

end ConversationCall

namespace ConversationTurn

open ConversationCall

variable {ι : Type} [DecidableEq ι] {turns : ι → ConversationTurn platform}
  {stores : ConversationStores platform} {p q : ConversationPool platform ι} {i : ι}

/-- The calls a turn may issue. -/
def Allowed (turn : ConversationTurn platform) (c : (conversationCalls platform).Call) : Prop :=
  (¬ turn.IsApproval → Grantless c) ∧ (¬ turn.IsApproval → ¬ turn.IsCancellation → Undeciding c)

theorem allowed_program (turn : ConversationTurn platform) : turn.program.All turn.Allowed := by
  by_cases ha : turn.IsApproval
  · exact (All.trivial _).mono fun c _ => ⟨fun h => absurd ha h, fun h => absurd ha h⟩
  by_cases hc : turn.IsCancellation
  · exact (grantless_program ha).mono fun c hg => ⟨fun _ => hg, fun _ h => absurd hc h⟩
  · exact (undeciding_program ha hc).mono fun c hu => ⟨fun _ => hu.grantless, fun _ _ => hu⟩

/-- At any point of any interleaving, from any stores, whatever a language model has answered: the next
step of a turn that is no approval command changes no effect and approves no record, and that of one which
is no cancellation either decides no record. -/
theorem decided_by_commands (before : Pool.Reaches (semantics platform ι) (pool turns stores) p)
    (step : Pool.Step (semantics platform ι) i p q) (noApproval : ¬ (turns i).IsApproval) :
    p.state.reminders.SameEffects q.state.reminders ∧
      NoneBecomes .approved p.state.approvals q.state.approvals ∧
      (¬ (turns i).IsCancellation → ∀ status, status ≠ .pending →
        NoneBecomes status p.state.approvals q.state.approvals) := by
  have hthreads : ∀ j, ((pool turns stores).threads j).All (turns j).Allowed :=
    fun j => (turns j).allowed_program
  obtain ⟨-, c, r, hallowed, effect⟩ := step.all (Pool.all_of_reaches hthreads before)
  obtain ⟨hsame, hnone⟩ := grantless_spec (hallowed.1 noApproval) effect
  exact ⟨hsame, hnone, fun noCancellation => (undeciding_spec (hallowed.2 noApproval noCancellation) effect).2⟩

/-- A question for the pending approvals. -/
def pendingTurn : ConversationTurn conversationPlatform :=
  { approvalTurn with
    message := { approvalTurn.message with
      text := "/pendientes"
      command := some "pendientes"
      nonempty := by decide } }

/-- The user cancels the record made for the first message. -/
def cancellationTurn : ConversationTurn conversationPlatform :=
  { approvalTurn with
    message := { approvalTurn.message with
      text := "/cancelar ap_160ac2c926"
      command := some "cancelar"
      nonempty := by decide } }

def decisionTurns : Fin 3 → ConversationTurn conversationPlatform
  | 0 => reminderTurn
  | 1 => pendingTurn
  | 2 => cancellationTurn

/-- Over the pending record of the first message, a question for the records decides nothing; a
cancellation decides that one, and neither approves it nor changes an effect. -/
theorem decided_by_commands_sample : ∃ p q r : ConversationPool conversationPlatform (Fin 3),
    Pool.Reaches (semantics conversationPlatform (Fin 3)) (pool decisionTurns .empty) p ∧
      (p.state.approvals.approvalsById.get? sampleRecord).map PendingApproval.status = some .pending ∧
      Pool.Step (semantics conversationPlatform (Fin 3)) 1 p q ∧
      (∀ status, status ≠ .pending → NoneBecomes status p.state.approvals q.state.approvals) ∧
      Pool.Step (semantics conversationPlatform (Fin 3)) 2 q r ∧
      (r.state.approvals.approvalsById.get? sampleRecord).map PendingApproval.status = some .cancelled ∧
      q.state.reminders.SameEffects r.state.reminders ∧
      NoneBecomes .approved q.state.approvals r.state.approvals := by
  have hpending : ¬ (decisionTurns 1).IsApproval ∧ ¬ (decisionTurns 1).IsCancellation := by
    unfold IsApproval IsCancellation
    decide
  have hcancellation : ¬ (decisionTurns 2).IsApproval := by
    unfold IsApproval
    decide
  have hserves : ∀ c s, semantics conversationPlatform (Fin 3) 0 c s
      (ConversationCall.serve (sampleDraw true) c s).1 (ConversationCall.serve (sampleDraw true) c s).2 :=
    ConversationCall.effect_serve _
  obtain ⟨p, hp, hps, -, hothers⟩ := exists_recorded hserves (show decisionTurns 0 = reminderTurn from rfl)
  have hrecord := recorded_and_approved.1.pending
  rw [← hps] at hrecord
  obtain ⟨a, hget, hfields⟩ := Option.map_eq_some_iff.mp hrecord
  simp only [Prod.mk.injEq] at hfields
  obtain ⟨hprincipal, -, hstatus⟩ := hfields
  -- the pending records are read
  obtain ⟨k, hk⟩ : ∃ k, (decisionTurns 1).program = Program.call
      (S := conversationCalls conversationPlatform) (.inr (.listPending .sample)) k := ⟨_, rfl⟩
  obtain ⟨records, hrecords⟩ : ∃ records, InMemoryApprovalStore.listPending .sample p.state.approvals =
      (.ok records, p.state.approvals) := ⟨_, rfl⟩
  have hread : Pool.Step (semantics conversationPlatform (Fin 3)) 1 p
      ⟨p.state, Function.update p.threads 1 (k (.ok records))⟩ :=
    .call ((hothers 1 (by decide)).trans hk) (.inr ⟨hrecords, rfl⟩)
  -- the record is cancelled
  obtain ⟨next, hnext⟩ : ∃ next, (decisionTurns 2).program = Program.call
      (S := conversationCalls conversationPlatform) (.inr (.reject .sample sampleRecord.2)) next := ⟨_, rfl⟩
  have hthread : Function.update p.threads 1 (k (.ok records)) 2 = (decisionTurns 2).program := by
    rw [Function.update_of_ne (by decide), hothers 2 (by decide)]
  let now : Instant := ⟨0, Nat.zero_le _⟩
  have hreject : InMemoryApprovalStore.reject .sample sampleRecord.2 now p.state.approvals =
      (.ok (a.withStatus .cancelled now), p.state.approvals.setApproval sampleRecord
        (a.withStatus .cancelled now)) :=
    InMemoryApprovalStore.cancel_of_pending (by rfl) hget hprincipal hstatus
  have hcancel : Pool.Step (semantics conversationPlatform (Fin 3)) 2
      ⟨p.state, Function.update p.threads 1 (k (.ok records))⟩
      ⟨⟨p.state.reminders, p.state.approvals.setApproval sampleRecord (a.withStatus .cancelled now)⟩,
        Function.update (Function.update p.threads 1 (k (.ok records))) 2
          (next (.ok (a.withStatus .cancelled now)))⟩ :=
    .call (hthread.trans hnext) (.inr ⟨now, hreject, rfl⟩)
  have hdecided := decided_by_commands hp hread hpending.1
  have hafter := decided_by_commands (hp.tail ⟨1, hread⟩) hcancel hcancellation
  refine ⟨p, _, _, hp, by simp [hget, hstatus], hread, hdecided.2.2 hpending.2, hcancel,
    ?_, hafter.1, hafter.2.1⟩
  simp [InMemoryApprovalStore.setApproval]

end ConversationTurn

end PersonalAssistant
