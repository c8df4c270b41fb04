import PersonalAssistant.Conversation.Service
import PersonalAssistant.Reminders.Effects

/-!
# The calls of a run

A run of the workflow opens a transaction only for a request with an approval, and only for the principal
it runs for. What a run without approval returns carries the idempotency of its request.
-/
namespace PersonalAssistant

open Lib Program InMemoryOutbox ReminderIdempotencyIdentity

variable {platform : Platform} {principal : Principal} {request : ReminderWorkflowInput}
  {i : ReminderIdempotency} {α : Type}

/-- A call that is no transaction. -/
def WorkflowCall.Quiet : WorkflowCall platform → Prop
  | .transact .. => False
  | _ => True

/-- A call that changes nothing in the stores. -/
def WorkflowCall.Still : WorkflowCall platform → Prop
  | .registerOrReplay .. | .upsert .. | .transact .. => False
  | _ => True

theorem WorkflowCall.Still.quiet (c : WorkflowCall platform) (h : c.Still) : c.Quiet := by
  cases c with
  | transact => exact h.elim
  | _ => trivial

/-- A transaction of this principal, or none. -/
def WorkflowCall.TransactsFor (principal : Principal) : WorkflowCall platform → Prop
  | .transact p _ => p = principal
  | _ => True

theorem WorkflowCall.transactsFor_of_quiet (c : WorkflowCall platform) (h : c.Quiet) :
    c.TransactsFor principal := by
  cases c with
  | transact => exact h.elim
  | _ => trivial

namespace ReminderWorkflow

open WorkflowCall

variable {w : ReminderWorkflow platform}

/-! ## Transactions -/

theorem still_writeTrace (type : TraceEventType) (tenantId runId : String) :
    (writeTrace type tenantId runId : WorkflowProgram platform String).All Still :=
  .bind (.perform trivial) fun _ => .ofExcept _

theorem still_utcnow : (utcnow : WorkflowProgram platform Instant).All Still := .perform trivial

theorem quiet_of_still {p : WorkflowProgram platform α} (h : p.All Still) : p.All Quiet := h.mono Still.quiet

theorem quiet_upsert (state : WorkflowState) :
    (upsert principal state : WorkflowProgram platform WorkflowState).All Quiet :=
  .bind (.perform trivial) fun _ => .ofExcept _

theorem still_guardedReply (runId text : String) :
    (w.guardedReply principal runId text).All Still := by
  refine .bind (.ofExcept _) fun _ => .bind (still_writeTrace _ _ _) fun _ => ?_
  exact .bind (.ofExcept _) fun _ => trivial

theorem still_registrationResult (traceIds : List String) (registration : WorkflowStateRegistration) :
    (w.registrationResult principal i traceIds registration).All Still := by
  refine .bind (.ofExcept _) fun replay => ?_
  cases replay with
  | none => trivial
  | some replay =>
    exact .bind (still_guardedReply _ _) fun _ => .bind (.ofExcept _) fun _ => trivial

theorem still_resolveExtraction (runId : String) :
    (w.resolveExtraction principal request runId).All Still := by
  refine .bind (.ofExcept _) fun result => ?_
  cases result with
  | parsed => trivial
  | needsClarification => trivial
  | unsupported reason =>
    simp only
    split_ifs
    · refine .bind (.bind (.perform trivial) fun _ => ?_) fun _ => trivial
      exact .bind (still_writeTrace _ _ _) fun _ => trivial
    · trivial

theorem quiet_proceed (state : WorkflowState) (traceIds : List String) :
    (w.proceed principal request i state traceIds).All Quiet := by
  refine .bind (quiet_of_still (still_resolveExtraction _)) fun resolution => ?_
  obtain ⟨extraction, clarification, llmTraceId⟩ := resolution
  cases extraction with
  | none =>
    refine .bind (.ofExcept _) fun _ => .bind (quiet_of_still (still_guardedReply _ _)) fun _ => ?_
    exact .bind (quiet_of_still still_utcnow) fun _ => .bind (quiet_upsert _) fun _ => .ofExcept _
  | some extraction =>
    refine .bind (quiet_of_still (still_writeTrace _ _ _)) fun _ => .bind (.ofExcept _) fun _ => ?_
    refine .bind (quiet_of_still still_utcnow) fun _ => .bind (quiet_upsert _) fun _ => ?_
    exact .bind (.ofExcept _) fun _ => .bind (quiet_of_still (still_guardedReply _ _)) fun _ => .ofExcept _

theorem quiet_runBeforeApproval (state : WorkflowState) (traceIds : List String) :
    (w.runBeforeApproval principal request i state traceIds).All Quiet := by
  refine .bind (.bind (.perform trivial) fun _ => .ofExcept _) fun registration => ?_
  refine .bind (quiet_of_still (still_registrationResult _ _)) fun replay => ?_
  cases replay with
  | some => trivial
  | none => exact quiet_proceed _ _

theorem still_approvedExtraction (existing : Option WorkflowState) :
    (w.approvedExtraction principal request i existing).All Still := by
  cases existing with
  | none => exact still_resolveExtraction _
  | some state =>
    unfold approvedExtraction
    simp only
    split_ifs
    · exact .bind (.ofExcept _) fun _ => .bind (.ofExcept _) fun _ => trivial
    · trivial

theorem still_checkApproval : (checkApproval principal request i).All (@Still platform) := by
  unfold checkApproval
  cases request.approval with
  | none => trivial
  | some grant =>
    refine All.bind still_utcnow fun now => ?_
    generalize requireApproval principal .P3 _ _ _ now = checked
    exact .ofExcept checked

theorem still_finish (traceIds : List String) (extraction : ReminderExtraction platform)
    (event : CalendarEventResult) (reminder : ScheduledReminder) (notice : Int) :
    (w.finish principal i traceIds extraction event reminder notice).All Still := by
  refine .bind (still_writeTrace _ _ _) fun _ => .bind (still_writeTrace _ _ _) fun _ => ?_
  exact .bind (.ofExcept _) fun _ => .bind (still_guardedReply _ _) fun _ => .ofExcept _

theorem transactsFor_runApproved (state : WorkflowState) (traceIds : List String) :
    (w.runApproved principal request i state traceIds).All (TransactsFor principal) := by
  refine .bind (.bind (.perform trivial) fun _ => .ofExcept _) fun existing => .bind (.ofExcept _) fun _ => ?_
  refine .bind ((quiet_of_still (still_approvedExtraction _)).mono transactsFor_of_quiet) fun resolution => ?_
  refine .bind (.bind (.perform rfl) fun _ => .ofExcept _) fun result => ?_
  cases result with
  | returned => trivial
  | created event reminder notice =>
    cases resolution.extraction with
    | none => trivial
    | some extraction => exact (quiet_of_still (still_finish _ _ _ _ _)).mono transactsFor_of_quiet

/-- The calls of a run, from those of its two ends. -/
theorem all_run_of {ok : WorkflowCall platform → Prop} (quiet : ∀ c, c.Quiet → ok c)
    (before : request.approval = none → ∀ i state traceIds,
      (w.runBeforeApproval principal request i state traceIds).All ok)
    (approved : request.approval ≠ none → ∀ i state traceIds,
      (w.runApproved principal request i state traceIds).All ok) :
    (w.run principal request).All ok := by
  have htrace : ∀ type tenantId runId, (writeTrace type tenantId runId : WorkflowProgram platform _).All ok :=
    fun _ _ _ => (quiet_of_still (still_writeTrace _ _ _)).mono quiet
  have hnow : (utcnow : WorkflowProgram platform Instant).All ok := (quiet_of_still still_utcnow).mono quiet
  refine .bind (.ofExcept _) fun i => .bind (.ofExcept _) fun _ => .bind (htrace _ _ _) fun _ => ?_
  refine .bind (.ofExcept _) fun _ => .bind (.ofExcept _) fun _ => ?_
  refine .bind ((quiet_of_still still_checkApproval).mono quiet) fun _ => ?_
  refine .bind (htrace _ _ _) fun _ => .bind (htrace _ _ _) fun _ => ?_
  refine .bind (.perform (quiet _ trivial)) fun _ => .bind hnow fun _ => .bind hnow fun _ => ?_
  cases happroval : request.approval with
  | none => exact before happroval _ _ _
  | some grant => exact approved (by simp [happroval]) _ _ _

/-- Without an approval no transaction is opened. -/
theorem quiet_run (h : request.approval = none) : (w.run principal request).All Quiet :=
  all_run_of (fun _ hc => hc) (fun _ _ => quiet_runBeforeApproval) fun hsome => absurd h hsome

theorem transactsFor_run : (w.run principal request).All (TransactsFor principal) :=
  all_run_of transactsFor_of_quiet
    (fun _ _ state traceIds => (quiet_runBeforeApproval state traceIds).mono transactsFor_of_quiet)
    fun _ _ => transactsFor_runApproved

/-! ## Results -/

/-- The result carries this idempotency. -/
structure ResultOf (platform : Platform) (i : ReminderIdempotency) (result : ReminderWorkflowResult) :
    Prop where
  idempotencyKey : result.idempotencyKey = i.key platform
  sourceEventId : result.sourceEventId = i.identity.sourceEventId
  payloadFingerprint : result.payloadFingerprint = i.payloadFingerprint platform
  timezone : result.timezone = i.payload.timezone

theorem ends_registrationResult (traceIds : List String) (registration : WorkflowStateRegistration) :
    (w.registrationResult principal i traceIds registration).Ends
      fun result => ∀ r ∈ result, ResultOf platform i r := by
  refine .after fun replay => ?_
  cases replay with
  | none => exact fun r hr => by cases hr
  | some replay =>
    have hresult : ∀ reply, ∀ result, replay.2.result platform i traceIds reply = .ok result →
        ResultOf platform i result := by
      intro reply result hresult
      obtain ⟨_, -, hresult⟩ := except_bind_eq_ok.mp hresult
      obtain ⟨_, -, hresult⟩ := except_bind_eq_ok.mp hresult
      rw [(ReminderWorkflowResult.validate_eq_ok hresult).1]
      exact ⟨rfl, rfl, rfl, rfl⟩
    refine .after fun reply => .bind (.ofExcept (hresult reply)) fun result h r hr => ?_
    cases hr
    exact h

theorem ends_proceed (state : WorkflowState) (traceIds : List String) :
    (w.proceed principal request i state traceIds).Ends (ResultOf platform i) := by
  refine .after fun resolution => ?_
  dsimp only
  cases resolution.extraction with
  | none =>
    refine .after fun _ => .after fun _ => .after fun _ => .after fun _ => .ofExcept fun result hresult => ?_
    rw [(ReminderWorkflowResult.validate_eq_ok hresult).1]
    exact ⟨rfl, rfl, rfl, rfl⟩
  | some extraction =>
    refine .after fun _ => .after fun _ => .after fun _ => .after fun _ => .after fun _ => .after fun _ =>
      .ofExcept fun result hresult => ?_
    rw [(ReminderWorkflowResult.validate_eq_ok hresult).1]
    exact ⟨rfl, rfl, rfl, rfl⟩

theorem ends_runBeforeApproval (state : WorkflowState) (traceIds : List String) :
    (w.runBeforeApproval principal request i state traceIds).Ends (ResultOf platform i) := by
  refine .after fun registration => .bind (ends_registrationResult _ _) fun replay hreplay => ?_
  cases replay with
  | some result => exact hreplay result rfl
  | none => exact ends_proceed _ _

/-- What a run without approval returns is the result of its request, whose key is the asserted one. -/
theorem ends_run (h : request.approval = none) : (w.run principal request).Ends fun result =>
    ∃ i, reminderIdempotency platform principal request = .ok i ∧ ResultOf platform i result ∧
      ∀ key ∈ request.idempotencyKey, key = i.key platform := by
  unfold run
  cases hi : reminderIdempotency platform principal request with
  | error e => trivial
  | ok i =>
    rw [ofExcept_ok_bind]
    refine .after fun _ => .after fun _ => .after fun _ => ?_
    cases hkey : requireDerivedKey platform principal request i with
    | error e => trivial
    | ok _ =>
      rw [ofExcept_ok_bind]
      refine .after fun _ => .after fun _ => .after fun _ => .after fun _ => .after fun _ => .after fun _ => ?_
      rw [h, Option.isNone_none, if_pos rfl]
      refine (ends_runBeforeApproval _ _).mono fun result hresult => ⟨i, rfl, hresult, fun key hasserted => ?_⟩
      unfold requireDerivedKey at hkey
      rw [hasserted] at hkey
      simpa using hkey

end ReminderWorkflow

end PersonalAssistant
