import PersonalAssistant.Lib.Isolation
import PersonalAssistant.Lib.Lists
import PersonalAssistant.Outbox.Machine
import PersonalAssistant.Stores.ApprovalRecords
import PersonalAssistant.Stores.Calendar
import PersonalAssistant.Stores.Memory
import PersonalAssistant.Stores.Scheduler
import PersonalAssistant.Stores.WorkflowRegistry

/-!
# The part of a tenant

The in-memory stores keep all tenants in one map each. Every method reads and writes the entries of its
principal's tenant only, with two exceptions: `due` of the scheduler selects by the tenant inside a job,
and the memory store is keyed by generated identifiers.
-/
namespace PersonalAssistant

open Lib InMemoryOutbox

variable {platform : Platform}

section Methods

variable {principal : Principal}

/-- Who is first in an index belongs to the tenant. -/
theorem takenByOther_part (index : Dict Key String) (tenant id key : String) :
    takenByOther (index.part tenant) (tenant, id) key = takenByOther index (tenant, id) key := by
  unfold takenByOther
  rw [Dict.get?_part]

/-! ## The event store -/

namespace InMemoryEventStore

def part (tenant : String) (s : InMemoryEventStore platform) : InMemoryEventStore platform :=
  ⟨s.eventsByKey.part tenant, s.fingerprints.part tenant⟩

theorem within_append (event : CloudEvent platform) :
    (append principal event).Within part principal.tenantId := by
  unfold append
  refine .bind (.ofExcept _) fun _ => .bind (.ofExcept _) fun _ => .get (fun s => ?_) fun s => ?_
  · simp only [part, Dict.get?_part]
  · cases s.eventsByKey.get? (principal.tenantId, event.id) with
    | some existing =>
      cases s.fingerprints.get? (principal.tenantId, event.id) with
      | none => exact .raise _
      | some stored =>
        dsimp only
        split_ifs
        · exact .raise _
        · exact .pure _
    | none =>
      refine .bind (.modify (fun s => ?_) fun t ht s => ?_) fun _ => .pure _
      · simp only [part, Dict.part_set]
      · simp only [part, Dict.part_set_of_ne ht]

theorem within_listForTenant :
    (listForTenant principal : Op (InMemoryEventStore platform) PyError _).Within part
      principal.tenantId := by
  unfold listForTenant
  refine .bind (.ofExcept _) fun _ => .get (fun s => ?_) fun s => .pure _
  simp only [part, Dict.entries_part, List.filter_filter, Bool.and_self]

end InMemoryEventStore

/-! ## The outbox -/

namespace InMemoryOutbox

def part (tenant : String) (s : InMemoryOutbox platform) : InMemoryOutbox platform where
  messagesByKey := s.messagesByKey.part tenant
  keyByMessageId := s.keyByMessageId.part tenant
  keyByEventId := s.keyByEventId.part tenant
  fingerprints := s.fingerprints.part tenant

theorem part_setMessage (s : InMemoryOutbox platform) (tenant key : String) (m : OutboxMessage platform) :
    (s.setMessage (tenant, key) m).part tenant = (s.part tenant).setMessage (tenant, key) m := by
  simp only [part, setMessage, Dict.part_set]

theorem part_setMessage_of_ne {t tenant : String} (h : t ≠ tenant) (s : InMemoryOutbox platform)
    (key : String) (m : OutboxMessage platform) : (s.setMessage (tenant, key) m).part t = s.part t := by
  simp only [part, setMessage, Dict.part_set_of_ne h]

theorem within_setMessage {k : Key} (h : k.1 = principal.tenantId) (m : OutboxMessage platform) :
    (Op.modify fun s => s.setMessage k m : Method platform Unit).Within part principal.tenantId := by
  obtain ⟨tenant, key⟩ := k
  cases h
  exact .modify (fun s => part_setMessage s _ key m) fun t ht s => part_setMessage_of_ne ht s key m

theorem within_add (event : CloudEvent platform) (idempotencyKey : String)
    (nextAttemptAt : Option DateTime) (messageId : Option String) (fresh : Uuid) (now : Instant) :
    (add principal event idempotencyKey nextAttemptAt messageId fresh now).Within part
      principal.tenantId := by
  unfold add
  refine .bind (.ofExcept _) fun _ => .bind (.ofExcept _) fun _ => .bind (.ofExcept _) fun next =>
    .get (fun s => ?_) fun s => ?_
  · simp only [part, Dict.get?_part, takenByOther_part]
  · cases s.messagesByKey.get? (principal.tenantId, idempotencyKey) with
    | some existing =>
      cases s.fingerprints.get? (principal.tenantId, idempotencyKey) with
      | none => exact .raise _
      | some stored =>
        dsimp only
        split_ifs
        · exact .raise _
        · exact .pure _
    | none =>
      refine .bind (.ofExcept _) fun message => ?_
      dsimp only
      split_ifs
      · exact .raise _
      · exact .raise _
      · refine .bind (.modify (fun s => ?_) fun t ht s => ?_) fun _ => .pure _
        · simp only [part, Dict.part_set]
        · simp only [part, Dict.part_set_of_ne ht]

section Batch

variable {due : Key → OutboxMessage platform → Bool}
  {update : Key → OutboxMessage platform → Except PyError (OutboxMessage platform)} {limit : Int}

/-- A batch visits the candidates of the tenant only. -/
theorem forEachDue_filter (tenant : String) (h : ∀ k m, due k m = true → k.1 = tenant)
    (cs : List (Key × OutboxMessage platform)) (done : List (OutboxMessage platform)) :
    forEachDue due update limit (cs.filter fun e => e.1.1 = tenant) done =
      forEachDue due update limit cs done := by
  induction cs generalizing done with
  | nil => rfl
  | cons c cs ih =>
    obtain ⟨k, m⟩ := c
    by_cases hk : k.1 = tenant
    · rw [List.filter_cons_of_pos (by simpa using hk)]
      simp only [forEachDue, ih]
    · have hdue : due k m = false := by
        cases hd : due k m with
        | true => exact absurd (h k m hd) hk
        | false => rfl
      rw [List.filter_cons_of_neg (by simpa using hk), ih, forEachDue, hdue]
      rfl

theorem within_forEachDue (h : ∀ k m, due k m = true → k.1 = principal.tenantId)
    (cs : List (Key × OutboxMessage platform)) (done : List (OutboxMessage platform)) :
    (forEachDue due update limit cs done).Within part principal.tenantId := by
  induction cs generalizing done with
  | nil => exact .pure _
  | cons c cs ih =>
    obtain ⟨k, m⟩ := c
    unfold forEachDue
    split_ifs with hd
    · refine .bind (.ofExcept _) fun updated => .bind (within_setMessage (h k m hd) updated) fun _ => ?_
      split_ifs
      · exact .pure _
      · exact ih _
    · exact ih _

/-- The batch over the candidates of a state. -/
theorem within_batch (h : ∀ k m, due k m = true → k.1 = principal.tenantId) :
    (do let self ← Op.get; forEachDue due update limit self.candidates [] :
      Method platform (List (OutboxMessage platform))).Within part principal.tenantId := by
  refine .get (fun s => ?_) fun s => within_forEachDue h _ _
  have hcandidates : (s.part principal.tenantId).candidates =
      s.candidates.filter fun e => e.1.1 = principal.tenantId :=
    (filter_insertionSort _ _).symm
  rw [hcandidates, forEachDue_filter _ h]

end Batch

theorem within_claimDue (now : DateTime) (limit : Int) (owner : String) (leaseSeconds : Int)
    (eventType : Option String) (tokens : Key → Uuid) :
    (claimDue principal now limit owner leaseSeconds eventType tokens :
      Method platform _).Within part principal.tenantId := by
  unfold claimDue
  refine .bind (.ofExcept _) fun _ => .bind (.ofExcept _) fun now => .bind (.ofExcept _) fun _ =>
    .bind (.ofExcept _) fun _ => .bind (.ofExcept _) fun owner => within_batch fun k m hdue => ?_
  simp only [claimable, Bool.and_eq_true, decide_eq_true_eq] at hdue
  exact hdue.1.1.1

theorem within_sweepExpiredSending (now : DateTime) (error : DeliveryError) (limit : Int)
    (eventType : Option String) :
    (sweepExpiredSending principal now error limit eventType :
      Method platform _).Within part principal.tenantId := by
  unfold sweepExpiredSending
  refine .bind (.ofExcept _) fun _ => .bind (.ofExcept _) fun now => .bind (.ofExcept _) fun _ =>
    within_batch fun k m hdue => ?_
  simp only [sweepable, Bool.and_eq_true, decide_eq_true_eq] at hdue
  exact hdue.1.1.1

theorem find?_part (s : InMemoryOutbox platform) (messageId : String) :
    (s.part principal.tenantId).find? principal messageId = s.find? principal messageId := by
  simp only [find?, part, Dict.entries_part, List.find?_filter]
  congr 1
  funext e
  simp only [Bool.and_eq_true, decide_eq_true_eq]
  grind

theorem within_transition (messageId claimToken : String) (expected : DeliveryStatus)
    (updates : OutboxMessage platform → OutboxMessage platform) :
    (transition principal messageId claimToken expected updates).Within part principal.tenantId := by
  unfold transition
  refine .bind (.ofExcept _) fun _ => .bind (.ofExcept _) fun _ => .get (fun s => ?_) fun s => ?_
  · simp only [find?_part]
  · cases hf : s.find? principal messageId with
    | none => exact .raise _
    | some e =>
      obtain ⟨k, m⟩ := e
      have hk := (find?_eq_some hf).2.1
      exact .bind (.ofExcept _) fun _ => .bind (.ofExcept _) fun _ => .bind (.ofExcept _) fun updated =>
        .bind (within_setMessage hk updated) fun _ => .pure _

theorem within_operatorTransition (messageId : String)
    (updates : OutboxMessage platform → OutboxMessage platform) :
    (operatorTransition principal messageId updates).Within part principal.tenantId := by
  unfold operatorTransition
  refine .bind (.ofExcept _) fun _ => .get (fun s => ?_) fun s => ?_
  · simp only [find?_part]
  · cases hf : s.find? principal messageId with
    | none => exact .raise _
    | some e =>
      obtain ⟨k, m⟩ := e
      have hk := (find?_eq_some hf).2.1
      exact .bind (.ofExcept _) fun _ => .bind (.ofExcept _) fun updated =>
        .bind (within_setMessage hk updated) fun _ => .pure _

theorem within_listForTenant :
    (listForTenant principal : Method platform _).Within part principal.tenantId := by
  unfold listForTenant
  refine .bind (.ofExcept _) fun _ => .get (fun s => ?_) fun s => .pure _
  simp only [part, Dict.entries_part, List.filter_filter, Bool.and_self]

theorem within_run (call : OutboxCall platform) :
    call.run.Within part call.principal.tenantId := by
  have hsingle : ∀ {p : Principal} {x : Method platform (OutboxMessage platform)},
      x.Within part p.tenantId → (OutboxCall.single x).Within part p.tenantId :=
    fun hx => .bind hx fun _ => .pure _
  cases call with
  | add p event key next id fresh now => exact hsingle (within_add event key next id fresh now)
  | claimDue p now limit owner lease type tokens => exact within_claimDue now limit owner lease type tokens
  | markSending p id token startedAt =>
    exact hsingle (.bind (.ofExcept _) fun _ => within_transition id token _ _)
  | markClaimFailed p id token error => exact hsingle (within_transition id token _ _)
  | markPublished p id token publishedAt clock =>
    exact hsingle (.bind (.ofExcept _) fun _ => within_transition id token _ _)
  | markFailed p id token error => exact hsingle (within_transition id token _ _)
  | markUncertain p id token error => exact hsingle (within_transition id token _ _)
  | release p id token next => exact hsingle (.bind (.ofExcept _) fun _ => within_transition id token _ _)
  | reschedule p id token next error =>
    exact hsingle (.bind (.ofExcept _) fun _ => within_transition id token _ _)
  | sweepExpiredSending p now error limit type => exact within_sweepExpiredSending now error limit type
  | resolveUncertainDelivered p id publishedAt =>
    exact hsingle (.bind (.ofExcept _) fun _ => within_operatorTransition id _)
  | resolveUncertainRetry p id next =>
    exact hsingle (.bind (.ofExcept _) fun _ => within_operatorTransition id _)

end InMemoryOutbox

/-! ## The workflow-state store -/

namespace InMemoryWorkflowStateStore

def part (tenant : String) (s : InMemoryWorkflowStateStore) : InMemoryWorkflowStateStore :=
  ⟨s.statesByKey.part tenant, s.keyByWorkflowId.part tenant⟩

theorem within_store (key id : String) (state : WorkflowState) :
    (Op.modify fun s =>
      { statesByKey := s.statesByKey.set (principal.tenantId, key) state
        keyByWorkflowId := s.keyByWorkflowId.set (principal.tenantId, id) key } : Method Unit).Within part
      principal.tenantId := by
  refine .modify (fun s => ?_) fun t ht s => ?_
  · simp only [part, Dict.part_set]
  · simp only [part, Dict.part_set_of_ne ht]

theorem within_registerOrReplay (state : WorkflowState) (resumeFromStep : Option String)
    (now : Instant) :
    (registerOrReplay principal state resumeFromStep now).Within part principal.tenantId := by
  unfold registerOrReplay
  refine .bind (.ofExcept _) fun _ => .bind (.ofExcept _) fun _ => .bind (.ofExcept _) fun _ =>
    .get (fun s => ?_) fun s => ?_
  · simp only [part, Dict.get?_part, takenByOther_part]
  · cases s.statesByKey.get? (principal.tenantId, state.idempotencyKey) with
    | some existing =>
      refine .bind (.ofExcept _) fun _ => .bind (.ofExcept _) fun _ => ?_
      split_ifs
      · refine .bind (.modify (fun s => ?_) fun t ht s => ?_) fun _ => .pure _
        · simp only [part, setState, Dict.part_set]
        · simp only [part, setState, Dict.part_set_of_ne ht]
      · exact .pure _
    | none =>
      dsimp only
      split_ifs
      · exact .raise _
      · exact .bind (within_store _ _ _) fun _ => .pure _

theorem within_upsert (state : WorkflowState) :
    (upsert platform principal state).Within part principal.tenantId := by
  unfold upsert
  refine .bind (.ofExcept _) fun _ => .bind (.ofExcept _) fun _ => .get (fun s => ?_) fun s =>
    .bind (.ofExcept _) fun _ => .bind (.ofExcept _) fun _ => .bind (within_store _ _ _) fun _ => .pure _
  simp only [part, Dict.get?_part, takenByOther_part]

theorem within_getByIdempotencyKey (idempotencyKey : String) :
    (getByIdempotencyKey principal idempotencyKey).Within part principal.tenantId := by
  unfold getByIdempotencyKey
  refine .bind (.ofExcept _) fun _ => .get (fun s => ?_) fun s => .pure _
  simp only [part, Dict.get?_part]

theorem within_listForTenant : (listForTenant principal).Within part principal.tenantId := by
  unfold listForTenant
  refine .bind (.ofExcept _) fun _ => .get (fun s => ?_) fun s => .pure _
  simp only [part, Dict.entries_part, List.filter_filter, Bool.and_self]

end InMemoryWorkflowStateStore

/-! ## The approval store -/

namespace InMemoryApprovalStore

def part (tenant : String) (s : InMemoryApprovalStore) : InMemoryApprovalStore where
  approvalsById := s.approvalsById.part tenant
  approvalIdByKey := s.approvalIdByKey.part tenant
  fingerprints := s.fingerprints.part tenant

theorem within_create (approval : PendingApproval) :
    (create platform principal approval).Within part principal.tenantId := by
  unfold create
  refine .bind (.ofExcept _) fun _ => .bind (.ofExcept _) fun _ => .bind (.ofExcept _) fun tier =>
    .bind (.ofExcept _) fun _ => .get (fun s => ?_) fun s => ?_
  · simp only [part, Dict.get?_part]
  · cases s.approvalIdByKey.get? (principal.tenantId, principal.principalId, approval.workflowKind,
        approval.idempotencyKey) with
    | some id =>
      dsimp only
      cases s.fingerprints.get? (principal.tenantId, id) with
      | none => exact .raise _
      | some stored =>
        cases s.approvalsById.get? (principal.tenantId, id) with
        | none => exact .raise _
        | some existing =>
          dsimp only
          split_ifs
          · exact .raise _
          · exact .pure _
    | none =>
      refine .bind (.modify (fun s => ?_) fun t ht s => ?_) fun _ => .pure _
      · simp only [part, Dict.part_set]
      · simp only [part, Dict.part_set_of_ne ht]

theorem within_get (approvalId : String) : (get principal approvalId).Within part principal.tenantId := by
  unfold get
  refine .bind (.ofExcept _) fun _ => .get (fun s => ?_) fun s => ?_
  · simp only [part, Dict.get?_part]
  · cases s.approvalsById.get? (principal.tenantId, approvalId) with
    | none => exact .pure _
    | some approval =>
      dsimp only
      split_ifs
      · exact .pure _
      · exact .pure _

theorem within_require (approvalId : String) :
    (require principal approvalId).Within part principal.tenantId := by
  unfold require
  refine .bind (within_get approvalId) fun found => ?_
  cases found with
  | none => exact .raise _
  | some approval => exact .pure _

theorem within_setApproval (approvalId : String) (approval : PendingApproval) :
    (Op.modify fun s => s.setApproval (principal.tenantId, approvalId) approval :
      Method Unit).Within part principal.tenantId := by
  refine .modify (fun s => ?_) fun t ht s => ?_
  · simp only [part, setApproval, Dict.part_set]
  · simp only [part, setApproval, Dict.part_set_of_ne ht]

theorem within_markApproved (approvalId : String) (now : Instant) :
    (markApproved principal approvalId now).Within part principal.tenantId := by
  unfold markApproved
  refine .bind (within_require approvalId) fun approval => ?_
  split_ifs
  · exact .pure _
  · exact .bind (within_setApproval approvalId _) fun _ => .pure _

theorem within_approve (approvalId : String) (now : Instant) :
    (approve platform principal approvalId now).Within part principal.tenantId := by
  unfold approve
  refine .bind (within_require approvalId) fun approval => ?_
  dsimp only
  split_ifs
  · exact .bind (.raise _) fun _ => .bind (.ofExcept _) fun _ => .bind (.ofExcept _) fun _ =>
      .bind (within_markApproved approvalId now) fun _ => .pure _
  · exact .bind (.raise _) fun _ => .bind (.ofExcept _) fun _ => .bind (.ofExcept _) fun _ => .pure _
  · exact .bind (.ofExcept _) fun _ => .bind (.ofExcept _) fun _ =>
      .bind (within_markApproved approvalId now) fun _ => .pure _
  · exact .bind (.ofExcept _) fun _ => .bind (.ofExcept _) fun _ => .pure _

theorem within_cancel (approvalId : String) (now : Instant) :
    (cancel principal approvalId now).Within part principal.tenantId := by
  unfold cancel
  refine .bind (within_require approvalId) fun approval => ?_
  cases approval.status with
  | approved => exact .raise _
  | cancelled => exact .pure _
  | pending => exact .bind (within_setApproval approvalId _) fun _ => .pure _

theorem within_listPending : (listPending principal).Within part principal.tenantId := by
  unfold listPending
  refine .bind (.ofExcept _) fun _ => .get (fun s => ?_) fun s => .pure _
  simp only [part, Dict.entries_part, List.filter_filter]
  refine congrArg (fun l => pure (List.map Prod.snd l)) (List.filter_congr fun e _ => ?_)
  grind

theorem within_listForTenant : (listForTenant principal).Within part principal.tenantId := by
  unfold listForTenant
  refine .bind (.ofExcept _) fun _ => .get (fun s => ?_) fun s => .pure _
  simp only [part, Dict.entries_part, List.filter_filter]
  refine congrArg (fun l => pure (List.map Prod.snd l)) (List.filter_congr fun e _ => ?_)
  grind

end InMemoryApprovalStore

/-! ## The calendar -/

namespace LocalCalendarTool

def part (tenant : String) (s : LocalCalendarTool) : LocalCalendarTool where
  eventsByKey := s.eventsByKey.part tenant
  keyByEventId := s.keyByEventId.part tenant
  fingerprints := s.fingerprints.part tenant

theorem within_createEvent (request : CalendarEventRequest) (approval : Option ApprovalGrant)
    (fresh : Uuid) (now : Instant) :
    (createEvent platform principal request approval fresh now).Within part principal.tenantId := by
  unfold createEvent
  refine .bind (.ofExcept _) fun _ => .get (fun s => ?_) fun s => ?_
  · simp only [part, Dict.get?_part, takenByOther_part]
  · cases s.eventsByKey.get? (principal.tenantId, request.idempotencyKey) with
    | some existing =>
      cases s.fingerprints.get? (principal.tenantId, request.idempotencyKey) with
      | none => exact .raise _
      | some stored =>
        dsimp only
        split_ifs
        · exact .raise _
        · exact .pure _
    | none =>
      dsimp only
      split_ifs
      · exact .raise _
      · refine .bind (.modify (fun s => ?_) fun t ht s => ?_) fun _ => .pure _
        · simp only [part, Dict.part_set]
        · simp only [part, Dict.part_set_of_ne ht]

theorem within_listEvents : (listEvents principal).Within part principal.tenantId := by
  unfold listEvents
  refine .bind (.ofExcept _) fun _ => .get (fun s => ?_) fun s => .pure _
  simp only [part, Dict.entries_part, List.filter_filter, Bool.and_self]

end LocalCalendarTool

/-! ## The reminder scheduler -/

namespace ReminderScheduler

def part (tenant : String) (s : ReminderScheduler) : ReminderScheduler :=
  ⟨s.jobsByKey.part tenant, s.keyByReminderId.part tenant⟩

theorem within_scheduleBeforeEvent (request : ScheduleRequest) (fresh : Uuid) :
    (scheduleBeforeEvent platform principal request fresh).Within part principal.tenantId := by
  unfold scheduleBeforeEvent
  refine .bind (.ofExcept _) fun _ => .bind (.ofExcept _) fun notifyAt => .bind (.ofExcept _) fun job =>
    .get (fun s => ?_) fun s => ?_
  · simp only [part, Dict.get?_part, takenByOther_part]
  · cases s.jobsByKey.get? (principal.tenantId, request.idempotencyKey) with
    | some existing =>
      dsimp only
      split_ifs
      · exact .raise _
      · exact .pure _
    | none =>
      dsimp only
      split_ifs
      · exact .raise _
      · refine .bind (.modify (fun s => ?_) fun t ht s => ?_) fun _ => .pure _
        · simp only [part, Dict.part_set]
        · simp only [part, Dict.part_set_of_ne ht]

theorem find?_part (s : ReminderScheduler) (reminderId : String) :
    (s.part principal.tenantId).find? principal reminderId = s.find? principal reminderId := by
  simp only [find?, part, Dict.entries_part, List.find?_filter]
  congr 1
  funext e
  simp only [Bool.and_eq_true, decide_eq_true_eq]
  grind

theorem within_setJob {k : Key} (h : k.1 = principal.tenantId) (job : ScheduledReminder) :
    (Op.modify fun s => s.setJob k job : Op ReminderScheduler PyError Unit).Within part
      principal.tenantId := by
  have hk : k = (principal.tenantId, k.2) := Prod.ext h rfl
  rw [hk]
  refine .modify (fun s => ?_) fun t ht s => ?_
  · simp only [part, setJob, Dict.part_set]
  · simp only [part, setJob, Dict.part_set_of_ne ht]

theorem within_mirrorDelivery (reminderId : String) (message : OutboxMessage platform) :
    (mirrorDelivery principal reminderId message).Within part principal.tenantId := by
  unfold mirrorDelivery
  refine .bind (.ofExcept _) fun _ => .bind (.ofExcept _) fun _ => .get (fun s => ?_) fun s => ?_
  · simp only [find?_part]
  · cases hf : s.find? principal reminderId with
    | none => exact .raise _
    | some e =>
      obtain ⟨k, job⟩ := e
      exact .bind (.ofExcept _) fun updated =>
        .bind (within_setJob (find?_eq_some hf).2.1 updated) fun _ => .pure _

theorem within_markSent (reminderId : String) (clock : Instant) :
    (markSent principal reminderId clock).Within part principal.tenantId := by
  unfold markSent
  refine .bind (.ofExcept _) fun _ => .get (fun s => ?_) fun s => ?_
  · simp only [find?_part]
  · cases hf : s.find? principal reminderId with
    | none => exact .raise _
    | some e =>
      obtain ⟨k, job⟩ := e
      exact .bind (within_setJob (find?_eq_some hf).2.1 _) fun _ => .pure _

theorem within_listForTenant : (listForTenant principal).Within part principal.tenantId := by
  unfold listForTenant
  refine .bind (.ofExcept _) fun _ => .get (fun s => ?_) fun s => .pure _
  simp only [part, Dict.entries_part, List.filter_filter, Bool.and_self]

/-- A job stands under its own tenant. -/
def Own (s : ReminderScheduler) : Prop :=
  ∀ k job, s.jobsByKey.get? k = some job → job.tenantId = k.1

theorem Own.set {s s' : ReminderScheduler} (h : s.Own) {k : Key} {job : ScheduledReminder}
    (hjob : job.tenantId = k.1) (hs' : s'.jobsByKey = s.jobsByKey.set k job) : s'.Own := by
  intro j x hx
  rw [hs', Dict.get?_set] at hx
  split_ifs at hx with hj
  · cases hx
    rw [hj]
    exact hjob
  · exact h j x hx

theorem due_snd (now : DateTime) (s : ReminderScheduler) : (due principal now s).2 = s := by
  unfold due
  cases requireTrustedPrincipal principal with
  | error e => rfl
  | ok _ =>
    simp only [Op.ofExcept_ok_bind]
    cases now.awareMicros "now" <;> rfl

/-- `due` selects by the tenant of the job, which is the tenant it stands under. -/
theorem due_part {s : ReminderScheduler} (h : s.Own) (now : DateTime) :
    due principal now (s.part principal.tenantId) =
      ((due principal now s).1, (due principal now s).2.part principal.tenantId) := by
  unfold due
  cases requireTrustedPrincipal principal with
  | error e => rfl
  | ok _ =>
    simp only [Op.ofExcept_ok_bind]
    cases now.awareMicros "now" with
    | error e => rfl
    | ok now =>
      simp only [Op.ofExcept_ok_bind, Op.get_bind, Op.pure_apply]
      have hvalues : (s.part principal.tenantId).jobsByKey.values.filter (isDue principal now) =
          s.jobsByKey.values.filter (isDue principal now) := by
        simp only [Dict.values, part, Dict.entries_part, List.filter_map, List.filter_filter]
        refine congrArg (List.map Prod.snd) (List.filter_congr fun e he => ?_)
        have hown := h e.1 e.2 (Dict.mem_entries.mp he)
        simp only [Function.comp_apply, isDue, hown]
        grind
      rw [hvalues]

end ReminderScheduler

/-! ## The memory store -/

namespace TenantMemoryStore

def part (tenant : String) (s : TenantMemoryStore) : TenantMemoryStore :=
  ⟨s.records.restrict fun e => e.2.tenantId = tenant⟩

/-- A filter that asks for the tenant finds its records in the part of the tenant. -/
theorem filter_part (s : TenantMemoryStore) {tenant : String} {p : MemoryRecord → Bool}
    (h : ∀ record, p record = true → record.tenantId = tenant) :
    (s.part tenant).records.values.filter p = s.records.values.filter p := by
  simp only [Dict.values, part, Dict.entries_restrict, List.filter_map, List.filter_filter]
  refine congrArg (List.map Prod.snd) (List.filter_congr fun e _ => ?_)
  cases hp : p e.2 with
  | false => simp [hp]
  | true => simp [hp, h e.2 hp]

theorem within_retrieve (query : String) (kind : Option MemoryKind) (confirmedOnly : Bool) (limit : Int) :
    (retrieve platform principal query kind confirmedOnly limit).Within part principal.tenantId := by
  unfold retrieve
  refine .bind (.ofExcept _) fun _ => .get (fun s => ?_) fun s => .pure _
  rw [filter_part s fun record h => ?_]
  simp only [isMatch, isOwn, Bool.and_eq_true, decide_eq_true_eq] at h
  exact h.1.1.1.1

theorem within_listForTenant : (listForTenant principal).Within part principal.tenantId := by
  unfold listForTenant
  refine .bind (.ofExcept _) fun _ => .get (fun s => ?_) fun s => .pure _
  rw [filter_part s fun record h => ?_]
  simp only [isOwn, Bool.and_eq_true, decide_eq_true_eq] at h
  exact h.1

/-- `add` raised without writing, or stored a record of the principal under its identifier. -/
theorem add_cases {kind : MemoryKind} {text source : String} {confirmed : Bool} {fresh : Uuid}
    {now : Instant} :
    (∃ e, ∀ s, add principal kind text source confirmed fresh now s = (.error e, s)) ∨
      ∃ record, record.tenantId = principal.tenantId ∧ record.id = "mem_" ++ fresh.hex ∧
        ∀ s, add principal kind text source confirmed fresh now s =
          (.ok record, ⟨s.records.set record.id record⟩) := by
  unfold add
  cases requireTrustedPrincipal principal with
  | error e => exact .inl ⟨e, fun _ => rfl⟩
  | ok _ =>
    cases hr : MemoryRecord.create principal kind text source confirmed fresh now with
    | error e => exact .inl ⟨e, fun _ => rfl⟩
    | ok record =>
      refine .inr ⟨record, ?_, ?_, fun _ => rfl⟩
      all_goals
        unfold MemoryRecord.create at hr
        obtain ⟨_, -, hr⟩ := except_bind_eq_ok.mp hr
        obtain ⟨_, -, hr⟩ := except_bind_eq_ok.mp hr
        cases hr
        rfl

end TenantMemoryStore

end Methods

end PersonalAssistant
