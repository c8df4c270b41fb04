import PersonalAssistant.Conversation.Gate

/-!
# Turns of a conversation

Which calls a turn can issue depends on its message alone: whatever a language model answers, only an
approval command reaches a grant and a transaction, and only a cancellation command rejects a record.
Together with the approval gate this holds of every interleaving of any turns.
-/
namespace PersonalAssistant

open Lib Program InMemoryOutbox ReminderIdempotencyIdentity ConversationCommandService

variable {platform : Platform} {principal : Principal} {D : Set ReminderIdempotencyIdentity}
  {U : Set ApprovalSlot} {α β : Type}

namespace ConversationCall

/-- A call that decides nothing and opens no transaction. -/
def Undeciding : (conversationCalls platform).Call → Prop
  | .inl c => c.Quiet
  | .inr (.createApproval _ approval) => approval.status = .pending
  | .inr c => c.ReadOnly

/-- A call that grants nothing and opens no transaction. -/
def Grantless : (conversationCalls platform).Call → Prop
  | .inr (.reject ..) => True
  | c => Undeciding c

theorem Idle.undeciding (c : (conversationCalls platform).Call) (h : Idle c) : Undeciding c := by
  rcases c with c | c
  · exact h.quiet
  · cases c <;> first | exact h.elim | trivial

theorem Undeciding.grantless (c : (conversationCalls platform).Call) (h : Undeciding c) : Grantless c := by
  rcases c with c | c
  · exact h
  · cases c <;> first | exact h | trivial

end ConversationCall

namespace ConversationCommandService

open ConversationCall

variable {svc : ConversationCommandService platform} {message : NormalizedMessage} {text : String}
  {now : DateTime} {timezone : String}

/-! ## Idle commands -/

theorem idle_reply (status : AgentStatus) (kind : CommandKind) (text : Except String String) :
    (reply status kind text : ConversationProgram platform CommandResult).All Idle :=
  .bind (.ofExcept _) fun _ => .ofExcept _

theorem ends_reply (status : AgentStatus) (kind : CommandKind) (text : Except String String) :
    (reply status kind text : ConversationProgram platform CommandResult).Ends fun r => r.approvalId = none :=
  .after fun _ => .ofExcept fun _ hr => CommandResult.create_approvalId hr

theorem idle_listPending : (listPending principal : ConversationProgram platform _).All Idle :=
  .bind (.perform trivial) fun _ => .ofExcept _

theorem idle_status : (svc.status principal).All Idle := by
  refine .bind idle_listPending fun pending => .bind (.perform trivial) fun _ => .bind (.ofExcept _) fun _ => ?_
  refine .bind (.perform trivial) fun _ => .bind (.ofExcept _) fun _ => ?_
  exact .bind (.perform trivial) fun _ => .bind (.ofExcept _) fun _ => idle_reply _ _ _

theorem ends_status : (svc.status principal).Ends fun r => r.approvalId = none := by
  refine .after fun _ => .after fun _ => .after fun _ => .after fun _ => .after fun _ => ?_
  exact .after fun _ => .after fun _ => ends_reply _ _ _

theorem idle_agenda : (svc.agenda principal).All Idle := by
  refine .bind (.perform trivial) fun _ => .bind (.ofExcept _) fun _ => ?_
  dsimp only
  split_ifs
  · exact idle_reply _ _ _
  · exact idle_reply _ _ _

theorem ends_agenda : (svc.agenda principal).Ends fun r => r.approvalId = none := by
  refine .after fun _ => .after fun _ => ?_
  dsimp only
  split_ifs
  · exact ends_reply _ _ _
  · exact ends_reply _ _ _

theorem idle_pending : (svc.pending principal).All Idle := by
  refine .bind idle_listPending fun pending => ?_
  split_ifs
  · exact idle_reply _ _ _
  · exact idle_reply _ _ _

theorem ends_pending : (svc.pending principal).Ends fun r => r.approvalId = none := by
  refine .after fun _ => ?_
  split_ifs
  · exact ends_reply _ _ _
  · exact ends_reply _ _ _

theorem idle_within {p : WorkflowProgram platform α} (h : p.All WorkflowCall.Still) : (within p).All Idle :=
  All.left h

theorem idle_recordInference {runId : String} (inferred : Option (InferredCommandIntent platform)) :
    (svc.recordInference principal runId inferred).All Idle := by
  cases inferred with
  | none => exact .bind (idle_within (ReminderWorkflow.still_writeTrace _ _ _)) fun _ => trivial
  | some inferred => exact .bind (idle_within (ReminderWorkflow.still_writeTrace _ _ _)) fun _ => trivial

theorem idle_inferIntent : (svc.inferIntent principal message text now timezone).All Idle := by
  unfold inferIntent
  split_ifs
  · trivial
  · dsimp only
    cases svc.renderIntent text now timezone with
    | error => exact idle_recordInference none
    | ok prompt => exact .bind (.perform trivial) fun answer => idle_recordInference _

/-! ## Commands that decide nothing -/

theorem undeciding_reply (status : AgentStatus) (kind : CommandKind) (text : Except String String) :
    (reply status kind text : ConversationProgram platform CommandResult).All Undeciding :=
  (idle_reply status kind text).mono Idle.undeciding

/-- A run of the workflow that opens no transaction. -/
theorem undeciding_within {p : WorkflowProgram platform α} (h : p.All WorkflowCall.Quiet) :
    (within p).All Undeciding := All.left h

theorem undeciding_createApproval {approval : PendingApproval} (h : approval.status = .pending) :
    (createApproval principal approval : ConversationProgram platform _).All Undeciding :=
  .bind (.perform h) fun _ => .ofExcept _

theorem undeciding_escalate {key : String} {result : ReminderWorkflowResult} :
    (svc.escalate principal message text now key result).All Undeciding := by
  unfold escalate
  split_ifs
  · refine All.bind (All.ofExcept _) fun requestNow => ?_
    refine All.bind (undeciding_within (ReminderWorkflow.quiet_of_still ReminderWorkflow.still_utcnow)) ?_
    intro createdAt
    generalize hchecked : PendingApproval.modelValidate platform _ = checked
    refine .check fun approval ha => ?_
    have hpending : approval.status = .pending := by
      rw [PendingApproval.modelValidate_eq_ok (hchecked.trans ha)]
      rfl
    exact .bind (undeciding_createApproval hpending) fun _ => .bind (.ofExcept _) fun _ => .ofExcept _
  · exact .ofExcept _

theorem undeciding_createReminder :
    (svc.createReminder principal message text now timezone).All Undeciding := by
  unfold createReminder
  split_ifs
  · exact undeciding_reply _ _ _
  · refine .bind (.ofExcept _) fun d => .check fun request hrequest => ?_
    refine All.bind (undeciding_within ?_) fun _ => undeciding_escalate
    exact ReminderWorkflow.quiet_run (createRequest_approval hrequest)

/-! ## The parts of a turn -/

section

variable (Φ : ConversationProgram platform CommandResult → Prop)

theorem handleInferredIntent_rule (idle : ∀ p, p.All Idle → p.Ends (fun r => r.approvalId = none) → Φ p)
    (create : ∀ text, Φ (svc.createReminder principal message text now timezone))
    (inferred : InferredCommandIntent platform) :
    Φ (svc.handleInferredIntent principal message inferred now timezone) := by
  unfold handleInferredIntent
  split
  · exact create _
  · exact idle _ (idle_reply _ _ _) (ends_reply _ _ _)
  · exact idle _ idle_status ends_status
  · exact idle _ idle_agenda ends_agenda
  · exact idle _ idle_pending ends_pending
  · exact idle _ (idle_reply _ _ _) (ends_reply _ _ _)

theorem handleText_rule (idle : ∀ p, p.All Idle → p.Ends (fun r => r.approvalId = none) → Φ p)
    (after : ∀ (p : ConversationProgram platform (Option (InferredCommandIntent platform))) f,
      p.All Idle → (∀ a, Φ (f a)) → Φ (p >>= f))
    (create : ∀ text, Φ (svc.createReminder principal message text now timezone)) :
    Φ (svc.handleText principal message text now timezone) := by
  have hreminder : Φ (if looksLikeReminder svc.lower text then
      svc.createReminder principal message (extractReminderText svc.lower text) now timezone
      else svc.unsupported) := by
    split_ifs
    · exact create _
    · exact idle _ (idle_reply _ _ _) (ends_reply _ _ _)
  unfold handleText
  dsimp only
  by_cases hcommand : (!startsWith (svc.lower text) "/") = true
  · rw [if_pos hcommand]
    refine after _ _ idle_inferIntent fun inferred => ?_
    cases inferred with
    | some inferred => exact handleInferredIntent_rule Φ idle create inferred
    | none => exact hreminder
  · rw [if_neg hcommand]
    exact hreminder

/-- What holds of idle programs that name no record, of creating a reminder and of the two commands that
decide a record holds of a turn. -/
theorem handle_rule (idle : ∀ p, p.All Idle → p.Ends (fun r => r.approvalId = none) → Φ p)
    (after : ∀ (p : ConversationProgram platform (Option (InferredCommandIntent platform))) f,
      p.All Idle → (∀ a, Φ (f a)) → Φ (p >>= f))
    (create : ∀ text, Φ (svc.createReminder principal message text now timezone))
    (approve : message.command = some "aprobar" ∨ startsWith (svc.lower (strip message.text)) "/aprobar" →
      Φ (svc.approve principal (strip message.text)))
    (cancel : message.command = some "cancelar" ∨ startsWith (svc.lower (strip message.text)) "/cancelar" →
      Φ (svc.cancel principal (strip message.text))) :
    Φ (svc.handle principal message now timezone) := by
  unfold handle
  dsimp only
  split_ifs with hstart hhelp hstatus hagenda hpending happrove hcancel hcreate
  · exact idle _ (idle_reply _ _ _) (ends_reply _ _ _)
  · exact idle _ (idle_reply _ _ _) (ends_reply _ _ _)
  · exact idle _ idle_status ends_status
  · exact idle _ idle_agenda ends_agenda
  · exact idle _ idle_pending ends_pending
  · exact approve happrove
  · exact cancel hcancel
  · exact create _
  · exact handleText_rule Φ idle after create

end

theorem grantless_cancel : (svc.cancel principal text).All Grantless := by
  have hreply : ∀ status kind text, (reply status kind text : ConversationProgram platform _).All Grantless :=
    fun status kind text => (undeciding_reply status kind text).mono Undeciding.grantless
  unfold cancel
  cases restOfWords text with
  | none => exact hreply _ _ _
  | some argument =>
    refine .bind (.perform trivial) fun rejected => ?_
    cases rejected with
    | ok => exact hreply _ _ _
    | error e =>
      dsimp only
      split_ifs
      · exact hreply _ _ _
      · trivial

end ConversationCommandService

namespace ConversationTurn

open ConversationCall

variable (turn : ConversationTurn platform)

/-- The message is `aprobar`, as a command or as a text. -/
def IsApproval : Prop :=
  turn.message.command = some "aprobar" ∨
    startsWith (turn.service.lower (strip turn.message.text)) "/aprobar"

/-- The message is `cancelar`. -/
def IsCancellation : Prop :=
  turn.message.command = some "cancelar" ∨
    startsWith (turn.service.lower (strip turn.message.text)) "/cancelar"

variable {turn}

theorem grantless_program (h : ¬ turn.IsApproval) : turn.program.All Grantless := by
  unfold IsApproval at h
  refine handle_rule (fun p => p.All Grantless) ?_ ?_ ?_ ?_ ?_
  · exact fun p hp _ => (hp.mono Idle.undeciding).mono Undeciding.grantless
  · exact fun p f hp hf => .bind ((hp.mono Idle.undeciding).mono Undeciding.grantless) hf
  · exact fun text => undeciding_createReminder.mono Undeciding.grantless
  · intro
    contradiction
  · intro
    generalize strip turn.message.text = text
    exact grantless_cancel

theorem undeciding_program (ha : ¬ turn.IsApproval) (hc : ¬ turn.IsCancellation) :
    turn.program.All Undeciding := by
  unfold IsApproval at ha
  unfold IsCancellation at hc
  refine handle_rule (fun p => p.All Undeciding) ?_ ?_ ?_ ?_ ?_
  · exact fun p hp _ => hp.mono Idle.undeciding
  · exact fun p f hp hf => .bind (hp.mono Idle.undeciding) hf
  · exact fun text => undeciding_createReminder
  · intro
    contradiction
  · intro
    contradiction

end ConversationTurn

end PersonalAssistant
