import PersonalAssistant.Outbox.Machine
import PersonalAssistant.Stores.Calendar
import PersonalAssistant.Stores.Scheduler
import PersonalAssistant.Stores.WorkflowStates

/-!
# The in-memory unit of work

A transaction snapshots the five reminder stores when its block is entered, applies writes in place and
restores the snapshot on rollback. `begin_` runs a block the way the `with` statement does. The flags
decide at the end of the block whether the writes stay: `exit_block_cases` is the complete account.
-/
namespace PersonalAssistant

open Lib

variable {platform : Platform}

/-- The five participants, in the lock order of the source. -/
structure ReminderStores (platform : Platform) where
  calendar : LocalCalendarTool
  scheduler : ReminderScheduler
  eventStore : InMemoryEventStore platform
  outbox : InMemoryOutbox platform
  states : InMemoryWorkflowStateStore

namespace ReminderStores

def empty : ReminderStores platform := ⟨.empty, .empty, .empty, .empty, .empty⟩

abbrev Method (platform : Platform) (α : Type) := Op (ReminderStores platform) PyError α

variable {α : Type}

def onCalendar (x : Op LocalCalendarTool PyError α) : Method platform α :=
  .zoom calendar (fun s c => { s with calendar := c }) x

def onScheduler (x : Op ReminderScheduler PyError α) : Method platform α :=
  .zoom scheduler (fun s c => { s with scheduler := c }) x

def onEventStore (x : Op (InMemoryEventStore platform) PyError α) : Method platform α :=
  .zoom eventStore (fun s c => { s with eventStore := c }) x

def onOutbox (x : Op (InMemoryOutbox platform) PyError α) : Method platform α :=
  .zoom outbox (fun s c => { s with outbox := c }) x

def onStates (x : Op InMemoryWorkflowStateStore PyError α) : Method platform α :=
  .zoom states (fun s c => { s with states := c }) x

end ReminderStores

/-- An entered transaction: the stores it writes through, their snapshot, and the two flags. -/
structure InMemoryReminderTransaction (platform : Platform) where
  stores : ReminderStores platform
  snapshot : ReminderStores platform
  committed : Bool
  rolledBack : Bool

namespace InMemoryReminderTransaction

variable {α : Type}

abbrev Block (platform : Platform) (α : Type) :=
  Op (InMemoryReminderTransaction platform) PyError α

/-- `__enter__`. -/
def enter (s : ReminderStores platform) : InMemoryReminderTransaction platform := ⟨s, s, false, false⟩

/-- A store method called through the transaction. -/
def store (x : ReminderStores.Method platform α) : Block platform α :=
  .zoom stores (fun t s => { t with stores := s }) x

def commit : Block platform Unit := fun t =>
  if t.rolledBack then
    (.error (.runtimeError "cannot commit a rolled-back reminder transaction"), t)
  else (.ok (), { t with committed := true })

/-- Restore the snapshot, once. -/
def rolledBackState (t : InMemoryReminderTransaction platform) :
    InMemoryReminderTransaction platform :=
  if t.rolledBack then t
  else { t with stores := t.snapshot, rolledBack := true, committed := false }

def rollback : Block platform Unit := fun t => (.ok (), t.rolledBackState)

/-- `__exit__`: roll back unless the block ended normally after a commit. -/
def exit (raised : Bool) (t : InMemoryReminderTransaction platform) :
    InMemoryReminderTransaction platform :=
  if raised || !t.committed then t.rolledBackState else t

/-- `with unit_of_work.begin(principal) as transaction: body`. -/
def begin_ (principal : Principal) (body : Block platform α) : ReminderStores.Method platform α :=
  fun s =>
    match requireTrustedPrincipal principal with
    | .error e => (.error e, s)
    | .ok () =>
      match body (enter s) with
      | (.ok a, t) => (.ok a, (t.exit false).stores)
      | (.error e, t) => (.error e, (t.exit true).stores)

/-! ## Blocks that do not roll back -/

/-- The snapshot is kept and nothing is rolled back. -/
def Onward (t t' : InMemoryReminderTransaction platform) : Prop :=
  t'.snapshot = t.snapshot ∧ t'.rolledBack = t.rolledBack

/-- A block that never rolls back by itself. -/
def Forward (x : Block platform α) : Prop := Op.Preserves Onward x

namespace Forward

variable {β : Type}

theorem refl (t : InMemoryReminderTransaction platform) : Onward t t := ⟨rfl, rfl⟩

theorem bind {x : Block platform α} {f : α → Block platform β} (hx : Forward x)
    (hf : ∀ a, Forward (f a)) : Forward (x >>= f) :=
  Op.Preserves.bind (fun h g => ⟨g.1.trans h.1, g.2.trans h.2⟩) hx hf

theorem pure (a : α) : Forward (Pure.pure a : Block platform α) := Op.Preserves.pure refl a

theorem ofExcept (x : Except PyError α) : Forward (Op.ofExcept x : Block platform α) :=
  Op.Preserves.ofExcept refl x

theorem raise (e : PyError) : Forward (Op.raise e : Block platform α) := Op.Preserves.raise refl e

theorem store (x : ReminderStores.Method platform α) : Forward (InMemoryReminderTransaction.store x) :=
  fun _ => ⟨rfl, rfl⟩

theorem commit : Forward (InMemoryReminderTransaction.commit : Block platform Unit) := by
  intro t
  unfold InMemoryReminderTransaction.commit
  split_ifs with h
  · exact refl t
  · exact ⟨rfl, rfl⟩

end Forward

theorem store_cases {x : ReminderStores.Method platform α} {t t' : InMemoryReminderTransaction platform}
    {r : Except PyError α} (h : store x t = (r, t')) :
    ∃ s', x t.stores = (r, s') ∧ t' = { t with stores := s' } := Op.zoom_cases h

theorem commit_eq_ok {t t' : InMemoryReminderTransaction platform} {u : Unit}
    (h : commit t = (.ok u, t')) : t' = { t with committed := true } := by
  unfold commit at h
  split_ifs at h
  · cases h
  · cases h
    rfl

/-- A block that never rolls back by itself raised and left the stores as they were, or returned; its
writes stay exactly when it committed. -/
theorem begin_cases {principal : Principal} {body : Block platform α} (hf : Forward body)
    {s s' : ReminderStores platform} {r : Except PyError α} (h : begin_ principal body s = (r, s')) :
    (∃ e, r = .error e ∧ s' = s) ∨
      ∃ a t, principal.trusted = true ∧ body (enter s) = (.ok a, t) ∧ r = .ok a ∧
        s' = if t.committed then t.stores else s := by
  have hon := hf (enter s)
  unfold begin_ at h
  cases htr : requireTrustedPrincipal principal with
  | error e =>
    simp only [htr] at h
    cases h; exact .inl ⟨e, rfl, rfl⟩
  | ok u =>
    rcases hb : body (enter s) with ⟨e | a, t⟩
    · simp only [htr, hb] at h
      rw [hb] at hon
      obtain ⟨hs, hr⟩ : t.snapshot = s ∧ t.rolledBack = false := hon
      cases h
      exact .inl ⟨e, rfl, by simp [exit, rolledBackState, hs, hr]⟩
    · simp only [htr, hb] at h
      rw [hb] at hon
      obtain ⟨hs, hr⟩ : t.snapshot = s ∧ t.rolledBack = false := hon
      cases h
      refine .inr ⟨a, t, requireTrustedPrincipal_eq_ok.mp htr, rfl, rfl, ?_⟩
      cases hc : t.committed <;> simp [exit, rolledBackState, hs, hr, hc]

end InMemoryReminderTransaction

open InMemoryReminderTransaction ReminderStores

/-! ## Blocks as sequences of actions -/

/-- One call on a participant, with the identifiers and clock readings it draws. Listing methods write
nothing and are one constructor. -/
inductive StoreCall (platform : Platform) where
  | createEvent (principal : Principal) (request : CalendarEventRequest)
      (approval : Option ApprovalGrant) (fresh : Uuid) (now : Instant)
  | scheduleBeforeEvent (principal : Principal) (request : ReminderScheduler.ScheduleRequest)
      (fresh : Uuid)
  | mirrorDelivery (principal : Principal) (reminderId : String) (message : OutboxMessage platform)
  | markSent (principal : Principal) (reminderId : String) (clock : Instant)
  | append (principal : Principal) (event : CloudEvent platform)
  | outbox (call : OutboxCall platform)
  | registerOrReplay (principal : Principal) (state : WorkflowState) (resumeFromStep : Option String)
      (now : Instant)
  | upsert (principal : Principal) (state : WorkflowState)
  | list (principal : Principal)

/-- Forget the value a method returns. -/
def discard {σ α : Type} (x : Op σ PyError α) : Op σ PyError Unit := do
  let _ ← x
  return ()

def StoreCall.run : StoreCall platform → ReminderStores.Method platform Unit
  | createEvent p request approval fresh now =>
    discard (onCalendar (LocalCalendarTool.createEvent platform p request approval fresh now))
  | scheduleBeforeEvent p request fresh =>
    discard (onScheduler (ReminderScheduler.scheduleBeforeEvent platform p request fresh))
  | mirrorDelivery p id message => discard (onScheduler (ReminderScheduler.mirrorDelivery p id message))
  | markSent p id clock => discard (onScheduler (ReminderScheduler.markSent p id clock))
  | append p event => discard (onEventStore (InMemoryEventStore.append p event))
  | outbox call => discard (onOutbox call.run)
  | registerOrReplay p state step now =>
    discard (onStates (InMemoryWorkflowStateStore.registerOrReplay p state step now))
  | upsert p state => discard (onStates (InMemoryWorkflowStateStore.upsert platform p state))
  | list p => .ofExcept (requireTrustedPrincipal p)

/-- What a block can do between entry and exit. -/
inductive TransactionAction (platform : Platform) where
  | call (c : StoreCall platform)
  | commit
  | rollback

namespace TransactionAction

def perform : TransactionAction platform → Block platform Unit
  | call c => store c.run
  | commit => InMemoryReminderTransaction.commit
  | rollback => InMemoryReminderTransaction.rollback

def isCommit : TransactionAction platform → Bool
  | commit => true
  | _ => false

def isRollback : TransactionAction platform → Bool
  | rollback => true
  | _ => false

end TransactionAction

open TransactionAction

/-- The transaction after a sequence of actions. An action that raises keeps what it did: the block
either handled the exception and went on, or this was its last action. -/
def performAll (actions : List (TransactionAction platform)) (t : InMemoryReminderTransaction platform) :
    InMemoryReminderTransaction platform :=
  actions.foldl (fun t a => (a.perform t).2) t

/-- The stores after a whole block over stores `s`. -/
def runBlock (actions : List (TransactionAction platform)) (raised : Bool)
    (s : ReminderStores platform) : ReminderStores platform :=
  ((performAll actions (enter s)).exit raised).stores

/-- The writes of the store calls alone. -/
def applyCalls (actions : List (TransactionAction platform)) (s : ReminderStores platform) :
    ReminderStores platform :=
  actions.foldl (fun s a => match a with
    | .call c => (c.run s).2
    | _ => s) s

/-- The `commit()` and `rollback()` calls that take effect: none does after a rollback. -/
def effective : List (TransactionAction platform) → List (TransactionAction platform)
  | [] => []
  | .call _ :: rest => effective rest
  | .commit :: rest => .commit :: effective rest
  | .rollback :: _ => [.rollback]

/-- Whether the last effective `commit()` or `rollback()` is a commit. -/
def commits (actions : List (TransactionAction platform)) : Bool :=
  match (effective actions).getLast? with
  | some a => a.isCommit
  | none => false

/-- The actions behind the first rollback. -/
def afterRollback : List (TransactionAction platform) → List (TransactionAction platform)
  | [] => []
  | .rollback :: rest => rest
  | .call _ :: rest => afterRollback rest
  | .commit :: rest => afterRollback rest

/-- All-or-nothing: entry content when the block raised or did not commit last, all writes otherwise. -/
def AllOrNothing (actions : List (TransactionAction platform)) (raised : Bool)
    (s : ReminderStores platform) : Prop :=
  runBlock actions raised s = if raised || !commits actions then s else applyCalls actions s

/-! ## What a block leaves behind -/

@[simp] theorem performAll_cons (a : TransactionAction platform)
    (actions : List (TransactionAction platform)) (t : InMemoryReminderTransaction platform) :
    performAll (a :: actions) t = performAll actions (a.perform t).2 := rfl

/-- Without a rollback the block applies its calls and remembers any commit. -/
theorem performAll_of_no_rollback {actions : List (TransactionAction platform)}
    (h : ∀ a ∈ actions, a.isRollback = false) {t : InMemoryReminderTransaction platform}
    (ht : t.rolledBack = false) :
    performAll actions t = { t with
      stores := applyCalls actions t.stores
      committed := t.committed || actions.any isCommit } := by
  induction actions generalizing t with
  | nil => simp [performAll, applyCalls]
  | cons a actions ih =>
    have hrest : ∀ a ∈ actions, a.isRollback = false := fun b hb => h b (by simp [hb])
    rw [performAll_cons]
    cases a with
    | call c =>
      rw [ih hrest (by simpa [perform, store] using ht)]
      simp [perform, store, applyCalls, isCommit]
    | commit =>
      rw [ih hrest (by simp [perform, InMemoryReminderTransaction.commit, ht])]
      simp [perform, InMemoryReminderTransaction.commit, ht, applyCalls, isCommit]
    | rollback => simp [isRollback] at h

/-- After a rollback only store calls still have an effect. -/
theorem performAll_of_rolledBack (actions : List (TransactionAction platform))
    {t : InMemoryReminderTransaction platform} (ht : t.rolledBack = true) :
    performAll actions t = { t with stores := applyCalls actions t.stores } := by
  induction actions generalizing t with
  | nil => rfl
  | cons a actions ih =>
    rw [performAll_cons]
    cases a with
    | call c =>
      rw [ih (by simpa [perform, store] using ht)]
      simp [perform, store, applyCalls]
    | commit =>
      rw [ih (by simp [perform, InMemoryReminderTransaction.commit, ht])]
      simp [perform, InMemoryReminderTransaction.commit, ht, applyCalls]
    | rollback =>
      rw [ih (by simp [perform, InMemoryReminderTransaction.rollback, rolledBackState, ht])]
      simp [perform, InMemoryReminderTransaction.rollback, rolledBackState, ht, applyCalls]

/-- A list with a rollback splits at its first one. -/
theorem split_at_rollback {actions : List (TransactionAction platform)}
    (h : ∃ a ∈ actions, a.isRollback = true) :
    ∃ before, actions = before ++ .rollback :: afterRollback actions ∧
      ∀ a ∈ before, a.isRollback = false := by
  induction actions with
  | nil => simp at h
  | cons a actions ih =>
    cases a with
    | rollback => exact ⟨[], rfl, by simp⟩
    | call c =>
      obtain ⟨before, he, hb⟩ := ih (by simpa [isRollback] using h)
      exact ⟨.call c :: before, by rw [afterRollback, List.cons_append, ← he],
        by simpa [isRollback] using hb⟩
    | commit =>
      obtain ⟨before, he, hb⟩ := ih (by simpa [isRollback] using h)
      exact ⟨.commit :: before, by rw [afterRollback, List.cons_append, ← he],
        by simpa [isRollback] using hb⟩

theorem commits_of_rollback {before : List (TransactionAction platform)}
    (hb : ∀ a ∈ before, a.isRollback = false) (rest : List (TransactionAction platform)) :
    commits (before ++ .rollback :: rest) = false := by
  have heff : ∃ l, effective (before ++ .rollback :: rest) = l ++ [.rollback] := by
    induction before with
    | nil => exact ⟨[], rfl⟩
    | cons a before ih =>
      obtain ⟨l, hl⟩ := ih fun b hb' => hb b (by simp [hb'])
      cases a with
      | call c => exact ⟨l, by simpa [effective] using hl⟩
      | commit => exact ⟨.commit :: l, by simp [effective, hl]⟩
      | rollback => simp [isRollback] at hb
  obtain ⟨l, hl⟩ := heff
  simp [commits, hl, isCommit]

theorem commits_of_no_rollback {actions : List (TransactionAction platform)}
    (h : ∀ a ∈ actions, a.isRollback = false) : commits actions = actions.any isCommit := by
  have heff : effective actions = actions.filter isCommit := by
    induction actions with
    | nil => rfl
    | cons a actions ih =>
      have hrest := ih fun b hb => h b (by simp [hb])
      cases a with
      | call c => simpa [effective, isCommit] using hrest
      | commit => rw [effective, hrest, List.filter_cons_of_pos rfl]
      | rollback => simp [isRollback] at h
  rw [commits, heff]
  cases hl : (actions.filter isCommit).getLast? with
  | none =>
    simp only [List.getLast?_eq_none_iff, List.filter_eq_nil_iff] at hl
    exact (List.any_eq_false.mpr hl).symm
  | some a =>
    have ha := List.mem_of_getLast? hl
    rw [List.mem_filter] at ha
    simp only [ha.2]
    exact (List.any_eq_true.mpr ⟨a, ha⟩).symm

/-- Without a rollback call the block is all or nothing. -/
theorem runBlock_of_no_rollback {actions : List (TransactionAction platform)}
    (h : ∀ a ∈ actions, a.isRollback = false) (raised : Bool) (s : ReminderStores platform) :
    AllOrNothing actions raised s := by
  rw [AllOrNothing, commits_of_no_rollback h, runBlock, performAll_of_no_rollback h rfl]
  cases raised <;> cases actions.any isCommit <;>
    simp [InMemoryReminderTransaction.exit, enter, rolledBackState]

/-- After a rollback call the block leaves the entry content and every later write. -/
theorem runBlock_of_rollback {before : List (TransactionAction platform)}
    (hb : ∀ a ∈ before, a.isRollback = false) (rest : List (TransactionAction platform))
    (raised : Bool) (s : ReminderStores platform) :
    runBlock (before ++ .rollback :: rest) raised s = applyCalls rest s := by
  have hsplit : performAll (before ++ .rollback :: rest) (enter s) =
      performAll rest (performAll before (enter s)).rolledBackState := by
    rw [performAll, List.foldl_append]; rfl
  rw [runBlock, hsplit, performAll_of_no_rollback hb rfl, performAll_of_rolledBack _ (by
    simp [rolledBackState, enter])]
  cases raised <;> simp [InMemoryReminderTransaction.exit, rolledBackState, enter]

/-- A block is all or nothing exactly when it calls no `rollback()`, or when the store calls it makes
after the first one leave the entry content as it is: the second restore is skipped by the early
return. -/
theorem all_or_nothing_iff (actions : List (TransactionAction platform)) (raised : Bool)
    (s : ReminderStores platform) :
    AllOrNothing actions raised s ↔
      (∀ a ∈ actions, a.isRollback = false) ∨ applyCalls (afterRollback actions) s = s := by
  by_cases h : ∀ a ∈ actions, a.isRollback = false
  · exact ⟨fun _ => .inl h, fun _ => runBlock_of_no_rollback h raised s⟩
  · have hex : ∃ a ∈ actions, a.isRollback = true := by simpa using h
    obtain ⟨before, he, hb⟩ := split_at_rollback hex
    have hrun := runBlock_of_rollback hb (afterRollback actions) raised s
    have hcom := commits_of_rollback hb (afterRollback actions)
    rw [← he] at hrun hcom
    rw [AllOrNothing, hrun, hcom]
    simp [h]

/-- An upsert that finds no state, after a rollback: the write survives the end of the block. -/
def strayState : WorkflowState where
  workflowId := "wf_1"
  tenantId := "tenant-1"
  workflowType := "reminder.create"
  status := .running
  step := "classify"
  idempotencyKey := "k"
  payloadFingerprint := none
  data := []
  createdAt := ⟨0, Nat.zero_le _⟩
  updatedAt := ⟨0, Nat.zero_le _⟩

theorem write_after_rollback_survives :
    ¬ @AllOrNothing (Platform.ofTable []) [.rollback, .call (.upsert .sample strayState)] false
      .empty := by
  intro h
  have hrun := @runBlock_of_rollback (Platform.ofTable []) [] (by simp)
    [.call (.upsert .sample strayState)] false .empty
  have hs := hrun.symm.trans h
  have := congrArg (fun s => s.states.statesByKey.entries.length) hs
  revert this; decide

end PersonalAssistant
