import PersonalAssistant.Isolation.Methods

/-!
# Tenant isolation

Histories of calls on all in-memory stores. What the principals of one tenant are answered does not
depend on the calls of others, as long as the identifiers generated for memory records are distinct.
-/
namespace PersonalAssistant

open Lib InMemoryOutbox

variable {platform : Platform}

/-! ## Calls -/

/-- A call of the event store. -/
inductive EventStoreCall (platform : Platform) where
  | append (principal : Principal) (event : CloudEvent platform)
  | listForTenant (principal : Principal)

namespace EventStoreCall

def principal : EventStoreCall platform → Principal
  | append p .. | listForTenant p => p

def run : EventStoreCall platform → Op (InMemoryEventStore platform) PyError (List (CloudEvent platform))
  | append p event => do
    let stored ← InMemoryEventStore.append p event
    return [stored]
  | listForTenant p => InMemoryEventStore.listForTenant p

theorem within_run (call : EventStoreCall platform) :
    call.run.Within InMemoryEventStore.part call.principal.tenantId := by
  cases call with
  | append p event => exact .bind (InMemoryEventStore.within_append event) fun _ => .pure _
  | listForTenant p => exact InMemoryEventStore.within_listForTenant

end EventStoreCall

/-- A call of the outbox; `claim` is `claim_due` at the clock. -/
inductive OutboxStoreCall (platform : Platform) where
  | change (call : OutboxCall platform)
  | claim (principal : Principal) (limit : Int) (owner : String) (leaseSeconds : Int) (clock : Instant)
      (tokens : Key → Uuid)
  | listForTenant (principal : Principal)

namespace OutboxStoreCall

def principal : OutboxStoreCall platform → Principal
  | change call => call.principal
  | claim p .. | listForTenant p => p

def run : OutboxStoreCall platform → InMemoryOutbox.Method platform (List (OutboxMessage platform))
  | change call => call.run
  | claim p limit owner leaseSeconds clock tokens => do
    .ofExcept (requireTrustedPrincipal p)
    InMemoryOutbox.claimDue p (.ofInstant clock) limit owner leaseSeconds none tokens
  | listForTenant p => InMemoryOutbox.listForTenant p

theorem within_run (call : OutboxStoreCall platform) :
    call.run.Within InMemoryOutbox.part call.principal.tenantId := by
  cases call with
  | change call => exact InMemoryOutbox.within_run call
  | claim p limit owner leaseSeconds clock tokens =>
    exact .bind (.ofExcept _) fun _ => InMemoryOutbox.within_claimDue _ limit owner leaseSeconds none tokens
  | listForTenant p => exact InMemoryOutbox.within_listForTenant

end OutboxStoreCall

/-- A call of the workflow-state store. -/
inductive WorkflowStoreCall where
  | change (call : RegistryCall)
  | getByIdempotencyKey (principal : Principal) (idempotencyKey : String)
  | listForTenant (principal : Principal)

namespace WorkflowStoreCall

def principal : WorkflowStoreCall → Principal
  | change call => call.principal
  | getByIdempotencyKey p .. | listForTenant p => p

def run (platform : Platform) :
    WorkflowStoreCall → InMemoryWorkflowStateStore.Method (RegistryAnswer ⊕ List WorkflowState)
  | change call => do
    let answer ← call.run platform
    return .inl answer
  | getByIdempotencyKey p idempotencyKey => do
    let found ← InMemoryWorkflowStateStore.getByIdempotencyKey p idempotencyKey
    return .inr found.toList
  | listForTenant p => do
    let states ← InMemoryWorkflowStateStore.listForTenant p
    return .inr states

theorem within_run (call : WorkflowStoreCall) :
    (call.run platform).Within InMemoryWorkflowStateStore.part call.principal.tenantId := by
  cases call with
  | change call =>
    refine .bind ?_ fun _ => .pure _
    cases call with
    | registerOrReplay p state resumeFromStep now =>
      exact .bind (InMemoryWorkflowStateStore.within_registerOrReplay state resumeFromStep now) fun _ =>
        .pure _
    | upsert p state => exact .bind (InMemoryWorkflowStateStore.within_upsert state) fun _ => .pure _
  | getByIdempotencyKey p key =>
    exact .bind (InMemoryWorkflowStateStore.within_getByIdempotencyKey key) fun _ => .pure _
  | listForTenant p => exact .bind InMemoryWorkflowStateStore.within_listForTenant fun _ => .pure _

end WorkflowStoreCall

/-- A call of the approval store. -/
inductive ApprovalStoreCall where
  | change (call : ApprovalCall)
  | get (principal : Principal) (approvalId : String)
  | listPending (principal : Principal)
  | listForTenant (principal : Principal)

namespace ApprovalStoreCall

def principal : ApprovalStoreCall → Principal
  | change call => call.principal
  | get p .. | listPending p | listForTenant p => p

def run (platform : Platform) :
    ApprovalStoreCall → InMemoryApprovalStore.Method (ApprovalAnswer ⊕ List PendingApproval)
  | change call => do
    let answer ← call.run platform
    return .inl answer
  | get p approvalId => do
    let found ← InMemoryApprovalStore.get p approvalId
    return .inr found.toList
  | listPending p => do
    let approvals ← InMemoryApprovalStore.listPending p
    return .inr approvals
  | listForTenant p => do
    let approvals ← InMemoryApprovalStore.listForTenant p
    return .inr approvals

theorem within_run (call : ApprovalStoreCall) :
    (call.run platform).Within InMemoryApprovalStore.part call.principal.tenantId := by
  cases call with
  | change call =>
    refine .bind ?_ fun _ => .pure _
    cases call with
    | create p approval => exact .bind (InMemoryApprovalStore.within_create approval) fun _ => .pure _
    | markApproved p id now =>
      exact .bind (InMemoryApprovalStore.within_markApproved id now) fun _ => .pure _
    | approve p id now => exact .bind (InMemoryApprovalStore.within_approve id now) fun _ => .pure _
    | cancel p id now => exact .bind (InMemoryApprovalStore.within_cancel id now) fun _ => .pure _
    | reject p id now => exact .bind (InMemoryApprovalStore.within_cancel id now) fun _ => .pure _
  | get p id => exact .bind (InMemoryApprovalStore.within_get id) fun _ => .pure _
  | listPending p => exact .bind InMemoryApprovalStore.within_listPending fun _ => .pure _
  | listForTenant p => exact .bind InMemoryApprovalStore.within_listForTenant fun _ => .pure _

end ApprovalStoreCall

/-- A call of the calendar. -/
inductive CalendarCall where
  | createEvent (principal : Principal) (request : CalendarEventRequest) (approval : Option ApprovalGrant)
      (fresh : Uuid) (now : Instant)
  | listEvents (principal : Principal)

namespace CalendarCall

def principal : CalendarCall → Principal
  | createEvent p .. | listEvents p => p

def run (platform : Platform) : CalendarCall → Op LocalCalendarTool PyError (List CalendarEventResult)
  | createEvent p request approval fresh now => do
    let result ← LocalCalendarTool.createEvent platform p request approval fresh now
    return [result]
  | listEvents p => LocalCalendarTool.listEvents p

theorem within_run (call : CalendarCall) :
    (call.run platform).Within LocalCalendarTool.part call.principal.tenantId := by
  cases call with
  | createEvent p request approval fresh now =>
    exact .bind (LocalCalendarTool.within_createEvent request approval fresh now) fun _ => .pure _
  | listEvents p => exact LocalCalendarTool.within_listEvents

end CalendarCall

/-- A call of the scheduler. -/
inductive ReminderCall (platform : Platform) where
  | scheduleBeforeEvent (principal : Principal) (request : ReminderScheduler.ScheduleRequest) (fresh : Uuid)
  | due (principal : Principal) (now : DateTime)
  | mirrorDelivery (principal : Principal) (reminderId : String) (message : OutboxMessage platform)
  | markSent (principal : Principal) (reminderId : String) (clock : Instant)
  | listForTenant (principal : Principal)

namespace ReminderCall

def principal : ReminderCall platform → Principal
  | scheduleBeforeEvent p .. | due p .. | mirrorDelivery p .. | markSent p .. | listForTenant p => p

def run : ReminderCall platform → Op ReminderScheduler PyError (List ScheduledReminder)
  | scheduleBeforeEvent p request fresh => do
    let job ← ReminderScheduler.scheduleBeforeEvent platform p request fresh
    return [job]
  | due p now => ReminderScheduler.due p now
  | mirrorDelivery p id message => do
    let job ← ReminderScheduler.mirrorDelivery p id message
    return [job]
  | markSent p id clock => do
    let job ← ReminderScheduler.markSent p id clock
    return [job]
  | listForTenant p => ReminderScheduler.listForTenant p

theorem own_run (call : ReminderCall platform) : (call.run).Keeps ReminderScheduler.Own := by
  intro s hs
  cases call with
  | scheduleBeforeEvent p request fresh =>
    simp only [run, Op.bind_pure_snd]
    rcases hrun : ReminderScheduler.scheduleBeforeEvent platform p request fresh s with ⟨r, s'⟩
    rcases ReminderScheduler.scheduleBeforeEvent_cases hrun with
      ⟨e, -, rfl⟩ | ⟨notifyAt, job, -, -, hjob, ⟨_, _, _, _, rfl⟩ | ⟨-, -, -, rfl⟩⟩
    · exact hs
    · exact hs
    · obtain ⟨-, rfl⟩ := ScheduledReminder.modelValidate_eq_ok hjob
      exact hs.set rfl rfl
  | due p now =>
    change ReminderScheduler.Own (ReminderScheduler.due p now s).2
    rw [ReminderScheduler.due_snd]
    exact hs
  | mirrorDelivery p id message =>
    simp only [run, Op.bind_pure_snd]
    rcases hrun : ReminderScheduler.mirrorDelivery p id message s with ⟨r, s'⟩
    rcases ReminderScheduler.mirrorDelivery_cases hrun with ⟨e, -, rfl⟩ | ⟨k, job, -, -, -, hf, -, -, rfl⟩
    · exact hs
    · have hget := (ReminderScheduler.find?_eq_some hf).1
      exact hs.set (show (job.mirrored message).tenantId = k.1 from hs k job hget) rfl
  | markSent p id clock =>
    simp only [run, Op.bind_pure_snd]
    rcases hrun : ReminderScheduler.markSent p id clock s with ⟨r, s'⟩
    rcases ReminderScheduler.markSent_cases hrun with ⟨e, -, rfl⟩ | ⟨k, job, hf, rfl⟩
    · exact hs
    · have hget := (ReminderScheduler.find?_eq_some hf).1
      refine hs.set ?_ rfl
      exact hs k job hget
  | listForTenant p =>
    have hstate : (ReminderScheduler.listForTenant p s).2 = s := by
      unfold ReminderScheduler.listForTenant
      cases requireTrustedPrincipal p <;> rfl
    change ReminderScheduler.Own (ReminderScheduler.listForTenant p s).2
    rw [hstate]
    exact hs

theorem isolates : Isolates (run : ReminderCall platform → _) (fun c => c.principal.tenantId)
    ReminderScheduler.part (fun _ _ => True) ReminderScheduler.Own := by
  have hcall : ∀ c : ReminderCall platform, (∃ p now, c = due p now) ∨
      c.run.Within ReminderScheduler.part c.principal.tenantId := by
    intro c
    cases c with
    | scheduleBeforeEvent p request fresh =>
      exact .inr (.bind (ReminderScheduler.within_scheduleBeforeEvent request fresh) fun _ => .pure _)
    | due p now => exact .inl ⟨p, now, rfl⟩
    | mirrorDelivery p id message =>
      exact .inr (.bind (ReminderScheduler.within_mirrorDelivery id message) fun _ => .pure _)
    | markSent p id clock =>
      exact .inr (.bind (ReminderScheduler.within_markSent id clock) fun _ => .pure _)
    | listForTenant p => exact .inr ReminderScheduler.within_listForTenant
  refine ⟨fun c s _ hs => own_run c s hs, fun c s _ hs => ?_, fun c s t _ hs ht => ?_⟩
  · rcases hcall c with ⟨p, now, rfl⟩ | h
    · exact ReminderScheduler.due_part hs now
    · exact h.own s
  · rcases hcall c with ⟨p, now, rfl⟩ | h
    · exact congrArg (ReminderScheduler.part t) (ReminderScheduler.due_snd now s)
    · exact h.frame t ht s

end ReminderCall

/-- A call of the memory store. -/
inductive MemoryCall where
  | add (principal : Principal) (kind : MemoryKind) (text source : String) (confirmed : Bool)
      (fresh : Uuid) (now : Instant)
  | retrieve (principal : Principal) (query : String) (kind : Option MemoryKind) (confirmedOnly : Bool)
      (limit : Int)
  | listForTenant (principal : Principal)

namespace MemoryCall

def principal : MemoryCall → Principal
  | add p .. | retrieve p .. | listForTenant p => p

def run (platform : Platform) : MemoryCall → TenantMemoryStore.Method (List MemoryRecord)
  | add p kind text source confirmed fresh now => do
    let record ← TenantMemoryStore.add p kind text source confirmed fresh now
    return [record]
  | retrieve p query kind confirmedOnly limit =>
    TenantMemoryStore.retrieve platform p query kind confirmedOnly limit
  | listForTenant p => TenantMemoryStore.listForTenant p

/-- The identifier a call generates. -/
def recordId : MemoryCall → Option String
  | add _ _ _ _ _ fresh _ => some ("mem_" ++ fresh.hex)
  | _ => none

/-- The generated identifier is new. -/
def Fresh (call : MemoryCall) (s : TenantMemoryStore) : Prop :=
  ∀ id ∈ call.recordId, s.records.get? id = none

/-- A call stores at most the record of its generated identifier. -/
theorem get?_run (platform : Platform) (call : MemoryCall) (s : TenantMemoryStore) {id : String} (h : id ∉ call.recordId) :
    (call.run platform s).2.records.get? id = s.records.get? id := by
  cases call with
  | add p kind text source confirmed fresh now =>
    simp only [run, Op.bind_pure_snd]
    rcases @TenantMemoryStore.add_cases p kind text source confirmed fresh now with
      ⟨e, hadd⟩ | ⟨record, -, hid, hadd⟩
    · rw [hadd]
    · rw [hadd]
      refine Dict.get?_set_of_ne _ _ fun he => h ?_
      rw [he, hid]
      rfl
  | retrieve p query kind confirmedOnly limit =>
    simp only [run, TenantMemoryStore.retrieve]
    cases requireTrustedPrincipal p <;> rfl
  | listForTenant p =>
    simp only [run, TenantMemoryStore.listForTenant]
    cases requireTrustedPrincipal p <;> rfl

theorem isolates : Isolates (run platform) (fun c => c.principal.tenantId) TenantMemoryStore.part
    Fresh fun _ => True := by
  refine ⟨fun _ _ _ _ => trivial, fun c s hfresh _ => ?_, fun c s t hfresh _ ht => ?_⟩
  · cases c with
    | add p kind text source confirmed fresh now =>
      simp only [run, Op.bind_apply, principal]
      rcases @TenantMemoryStore.add_cases p kind text source confirmed fresh now with
        ⟨e, hadd⟩ | ⟨record, ht, hid, hadd⟩
      · rw [hadd, hadd]
      · have hnone : s.records.get? record.id = none := by
          rw [hid]
          exact hfresh _ rfl
        have hset := Dict.restrict_set (d := s.records) (k := record.id) (v := record)
          (p := fun e => e.2.tenantId = p.tenantId) (by simpa using ht) (by simp [hnone])
        rw [hadd, hadd]
        simp only [Op.pure_apply, TenantMemoryStore.part, hset]
    | retrieve p query kind confirmedOnly limit =>
      exact (TenantMemoryStore.within_retrieve query kind confirmedOnly limit).own s
    | listForTenant p => exact TenantMemoryStore.within_listForTenant.own s
  · cases c with
    | add p kind text source confirmed fresh now =>
      simp only [run, Op.bind_pure_snd]
      rcases @TenantMemoryStore.add_cases p kind text source confirmed fresh now with
        ⟨e, hadd⟩ | ⟨record, ht', hid, hadd⟩
      · rw [hadd]
      · have hnone : s.records.get? record.id = none := by
          rw [hid]
          exact hfresh _ rfl
        have hother : record.tenantId ≠ t := fun he => ht (he.symm.trans ht')
        have hset := Dict.restrict_set_of_false (d := s.records) (k := record.id) (v := record)
          (p := fun e => e.2.tenantId = t) (by simpa using hother) (by simp [hnone])
        rw [hadd]
        simp only [TenantMemoryStore.part, hset]
    | retrieve p query kind confirmedOnly limit =>
      exact (TenantMemoryStore.within_retrieve query kind confirmedOnly limit).frame t ht s
    | listForTenant p => exact TenantMemoryStore.within_listForTenant.frame t ht s

end MemoryCall

/-! ## All stores together -/

inductive StoreName where
  | events
  | outbox
  | workflowStates
  | approvals
  | calendar
  | scheduler
  | memory
deriving DecidableEq

namespace StoreName

def State (platform : Platform) : StoreName → Type
  | events => InMemoryEventStore platform
  | outbox => InMemoryOutbox platform
  | workflowStates => InMemoryWorkflowStateStore
  | approvals => InMemoryApprovalStore
  | calendar => LocalCalendarTool
  | scheduler => ReminderScheduler
  | memory => TenantMemoryStore

def empty (platform : Platform) : (store : StoreName) → store.State platform
  | events => InMemoryEventStore.empty
  | outbox => InMemoryOutbox.empty
  | workflowStates => InMemoryWorkflowStateStore.empty
  | approvals => InMemoryApprovalStore.empty
  | calendar => LocalCalendarTool.empty
  | scheduler => ReminderScheduler.empty
  | memory => TenantMemoryStore.empty

def Call (platform : Platform) : StoreName → Type
  | events => EventStoreCall platform
  | outbox => OutboxStoreCall platform
  | workflowStates => WorkflowStoreCall
  | approvals => ApprovalStoreCall
  | calendar => CalendarCall
  | scheduler => ReminderCall platform
  | memory => MemoryCall

def Answer (platform : Platform) : StoreName → Type
  | events => List (CloudEvent platform)
  | outbox => List (OutboxMessage platform)
  | workflowStates => RegistryAnswer ⊕ List WorkflowState
  | approvals => ApprovalAnswer ⊕ List PendingApproval
  | calendar => List CalendarEventResult
  | scheduler => List ScheduledReminder
  | memory => List MemoryRecord

def run (platform : Platform) : (store : StoreName) → store.Call platform →
    Op (store.State platform) PyError (store.Answer platform)
  | events => EventStoreCall.run
  | outbox => OutboxStoreCall.run
  | workflowStates => WorkflowStoreCall.run platform
  | approvals => ApprovalStoreCall.run platform
  | calendar => CalendarCall.run platform
  | scheduler => ReminderCall.run
  | memory => MemoryCall.run platform

def principal : (store : StoreName) → store.Call platform → Principal
  | events => EventStoreCall.principal
  | outbox => OutboxStoreCall.principal
  | workflowStates => WorkflowStoreCall.principal
  | approvals => ApprovalStoreCall.principal
  | calendar => CalendarCall.principal
  | scheduler => ReminderCall.principal
  | memory => MemoryCall.principal

/-- What a store holds for a tenant. -/
def part : (store : StoreName) → String → store.State platform → store.State platform
  | events => InMemoryEventStore.part
  | outbox => InMemoryOutbox.part
  | workflowStates => InMemoryWorkflowStateStore.part
  | approvals => InMemoryApprovalStore.part
  | calendar => LocalCalendarTool.part
  | scheduler => ReminderScheduler.part
  | memory => TenantMemoryStore.part

/-- An identifier that a call generates for a map of all tenants. -/
def recordId : (store : StoreName) → store.Call platform → Option String
  | memory => MemoryCall.recordId
  | _ => fun _ => none

def Admissible : (store : StoreName) → store.Call platform → store.State platform → Prop
  | memory => MemoryCall.Fresh
  | _ => fun _ _ => True

def Invariant : (store : StoreName) → store.State platform → Prop
  | scheduler => ReminderScheduler.Own
  | _ => fun _ => True

theorem isolates (platform : Platform) (store : StoreName) :
    Isolates (store.run platform) (fun c => (store.principal c).tenantId) store.part
      store.Admissible store.Invariant := by
  cases store with
  | events => exact .of_within EventStoreCall.within_run
  | outbox => exact .of_within OutboxStoreCall.within_run
  | workflowStates => exact .of_within WorkflowStoreCall.within_run
  | approvals => exact .of_within ApprovalStoreCall.within_run
  | calendar => exact .of_within CalendarCall.within_run
  | scheduler => exact ReminderCall.isolates
  | memory => exact MemoryCall.isolates

end StoreName

abbrev TenantStores (platform : Platform) := (store : StoreName) → store.State platform

abbrev TenantCall (platform : Platform) := (store : StoreName) × store.Call platform

abbrev TenantAnswer (platform : Platform) := (store : StoreName) × store.Answer platform

namespace TenantCall

def run : TenantCall platform → Op (TenantStores platform) PyError (TenantAnswer platform) :=
  runComponent (StoreName.run platform)

def principal (c : TenantCall platform) : Principal := c.1.principal c.2

/-- The call is made by a principal of the tenant. -/
def isOf (tenant : String) (c : TenantCall platform) : Bool := c.principal.tenantId = tenant

def recordId (c : TenantCall platform) : Option String := c.1.recordId c.2

/-- Identifiers that a history generates once are new where they are generated. -/
theorem along_admissible {s : TenantStores platform} {cs : List (TenantCall platform)}
    (distinct : (cs.filterMap recordId).Nodup)
    (unused : ∀ id ∈ cs.filterMap recordId, (s .memory).records.get? id = none) :
    Along run (fun c s => c.1.Admissible c.2 (s c.1)) s cs := by
  induction cs generalizing s with
  | nil => trivial
  | cons c cs ih =>
    rw [List.filterMap_cons] at distinct unused
    have hrest : (cs.filterMap recordId).Nodup ∧ ∀ id ∈ cs.filterMap recordId,
        id ∉ c.recordId ∧ (s .memory).records.get? id = none := by
      cases hc : c.recordId with
      | none =>
        simp only [hc] at distinct unused
        exact ⟨distinct, fun id hid => ⟨by simp, unused id hid⟩⟩
      | some own =>
        simp only [hc, List.nodup_cons] at distinct unused
        refine ⟨distinct.2, fun id hid => ⟨?_, unused id (List.mem_cons_of_mem _ hid)⟩⟩
        rintro ⟨⟩
        exact distinct.1 hid
    refine ⟨?_, ih hrest.1 fun id hid => ?_⟩
    · obtain ⟨store, c⟩ := c
      cases store with
      | memory =>
        intro id hid
        have hid : recordId (⟨.memory, c⟩ : TenantCall platform) = some id := hid
        simp only [hid] at unused
        exact unused id List.mem_cons_self
      | _ => trivial
    · obtain ⟨hne, hnone⟩ := hrest.2 id hid
      obtain ⟨store, c⟩ := c
      cases store with
      | memory =>
        have hget := c.get?_run platform (s .memory) hne
        simp only [run, runComponent, Function.update_self]
        exact hget.trans hnone
      | _ => simpa [run, runComponent] using hnone

end TenantCall

/-- Tenant noninterference. In two histories of calls from empty stores in which a tenant's principals
make the same calls, they get the same answers and exceptions, whatever other principals call. -/
theorem tenants_do_not_interfere (tenant : String) {cs ds : List (TenantCall platform)}
    (distinct : (cs.filterMap TenantCall.recordId).Nodup)
    (distinct' : (ds.filterMap TenantCall.recordId).Nodup)
    (same : cs.filter (TenantCall.isOf tenant) = ds.filter (TenantCall.isOf tenant)) :
    ((history TenantCall.run (fun store => store.empty _) cs).filter fun e => e.1.isOf tenant) =
      (history TenantCall.run (fun store => store.empty _) ds).filter fun e => e.1.isOf tenant := by
  have hisolates := Isolates.components (StoreName.isolates platform)
  have hempty : ∀ store : StoreName, store.Invariant (store.empty platform) := by
    intro store
    cases store with
    | scheduler => intro k job h; cases h
    | _ => trivial
  have halong : ∀ cs : List (TenantCall platform), (cs.filterMap TenantCall.recordId).Nodup →
      Along TenantCall.run (fun c s => c.1.Admissible c.2 (s c.1)) (fun store => store.empty _) cs :=
    fun cs h => TenantCall.along_admissible h fun id _ => Dict.get?_empty id
  exact hisolates.noninterference tenant hempty hempty (halong cs distinct) (halong ds distinct') rfl same

/-! ### Two tenants -/

def Principal.stranger : Principal :=
  .forTest ⟨"user-2", by decide, by decide, by decide⟩ ⟨"tenant-2", by decide, by decide, by decide⟩ .P6

/-- Remember a text, at the record identifier of `fresh`. -/
def sampleRemember (principal : Principal) (fresh : Uuid) : TenantCall samplePlatform :=
  ⟨.memory, .add principal .semantic "Likes tea" "chat" true fresh ⟨0, Nat.zero_le _⟩⟩

def sampleRecall (principal : Principal) : TenantCall samplePlatform :=
  ⟨.memory, .retrieve principal "tea" none true 1⟩

/-- What the sample principal recalls does not depend on what the stranger stores first. -/
theorem stranger_does_not_interfere :
    let own := [sampleRemember .sample .zero, sampleRecall .sample]
    let mixed := sampleRemember .stranger ⟨String.ofList (List.replicate 32 '1'), by decide⟩ :: own
    ((history TenantCall.run (fun store => store.empty _) mixed).filter fun e => e.1.isOf "tenant-1") =
      (history TenantCall.run (fun store => store.empty _) own).filter fun e => e.1.isOf "tenant-1" := by
  intro own mixed
  exact tenants_do_not_interfere "tenant-1" (by decide +kernel) (by decide +kernel) rfl

end PersonalAssistant
