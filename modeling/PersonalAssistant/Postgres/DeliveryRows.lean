import Mathlib.Data.List.Pairwise
import PersonalAssistant.Lib.Runs
import PersonalAssistant.Postgres.OutboxAgreement
import PersonalAssistant.Postgres.Scheduler

/-!
# Columns and payload of the delivery rows

The statements select on columns while callers act on the payload. Every statement writes both halves by
its own list of assignments, and the trigger of the scheduler writes some of them again. A row is in step
when both halves denote the same delivery state; every call keeps every row in step.
-/
namespace PersonalAssistant

open Lib InMemoryOutbox

variable {platform : Platform}

/-- The error columns of a row are the error of its payload. -/
structure ErrorColumns (category : Option DeliveryErrorCategory) (code : Option DeliveryErrorCode)
    (providerCode : Option (Fin 10000)) (occurredAt : Option Instant) (error : Option DeliveryError) :
    Prop where
  category : category = error.map DeliveryError.category
  code : code = error.map DeliveryError.code
  providerCode : providerCode = error.bind DeliveryError.providerCode
  occurredAt : occurredAt = error.map DeliveryError.occurredAt

/-- Columns and payload of an outbox row denote the same values. -/
structure OutboxRow.InStep (r : OutboxRow platform) : Prop where
  dispatchStatus : r.dispatchStatus = r.payload.dispatchStatus
  claimToken : r.claimToken = r.payload.claimToken
  claimOwner : r.claimOwner = r.payload.claimOwner
  claimedUntil : r.claimedUntil = r.payload.claimedUntil
  nextAttemptAt : r.nextAttemptAt = r.payload.nextAttemptAt
  sendingAt : r.sendingAt = r.payload.sendingAt
  publishedAt : r.publishedAt = r.payload.publishedAt
  attempts : r.attempts = r.payload.attempts
  lastError : ErrorColumns r.lastErrorCategory r.lastErrorCode r.lastErrorProviderCode r.lastErrorAt
    r.payload.lastError

/-- Columns and payload of a scheduler row denote the same values. -/
structure ReminderRow.InStep (r : ReminderRow) : Prop where
  deliveryStatus : r.deliveryStatus = r.payload.deliveryStatus
  nextAttemptAt : r.nextAttemptAt = r.payload.nextAttemptAt
  sendingAt : r.sendingAt = r.payload.sendingAt
  publishedAt : r.publishedAt = r.payload.publishedAt
  attempts : r.attempts = r.payload.attempts
  lastError : ErrorColumns r.lastErrorCategory r.lastErrorCode r.lastErrorProviderCode r.lastErrorAt
    r.payload.lastError
  sent : r.sent = r.payload.sent

/-! ## The outbox table -/

namespace PostgresOutbox

/-- Every row of the outbox table is in step. -/
def InStep (t : OutboxTable platform) : Prop := ∀ r ∈ t, r.InStep

abbrev KeepsStep {α : Type} (x : Method platform α) : Prop := x.Keeps InStep

theorem keepsStep_updated {selected : OutboxRow platform → Bool}
    {assign : OutboxRow platform → OutboxRow platform} (h : ∀ r, r.InStep → (assign r).InStep) :
    KeepsStep (.modify fun t => t.map fun r => if selected r then assign r else r :
      Method platform Unit) := by
  refine .modify fun t ht r hr => ?_
  obtain ⟨old, hold, rfl⟩ := List.mem_map.mp hr
  split_ifs
  · exact h old (ht old hold)
  · exact ht old hold

theorem keepsStep_updateSelected {selected : OutboxRow platform → Bool} {limit : Int}
    {assign : OutboxRow platform → OutboxRow platform} (h : ∀ r, r.InStep → (assign r).InStep) :
    KeepsStep (updateSelected selected limit assign) := by
  refine .get fun table => Op.Keeps.check (fun _ _ => .check fun messages _ => ?_) table
  exact .bind (keepsStep_updated h) fun _ => .pure messages

theorem keepsStep_updateRow {principal : Principal} {messageId : String}
    {more : OutboxRow platform → Bool} {assign : OutboxRow platform → OutboxRow platform}
    {refuse : Option (OutboxRow platform) → PyError} (h : ∀ r, r.InStep → (assign r).InStep) :
    KeepsStep (updateRow principal messageId more assign refuse) := by
  refine .get fun table => ?_
  simp only
  cases table.find? fun r => decide (r.tenantId = principal.tenantId) &&
    decide (r.messageId = messageId) && more r with
  | none => exact Op.Keeps.raise _ table
  | some row =>
    refine Op.Keeps.check (fun _ _ => .check fun _ _ => .check fun m _ => ?_) table
    exact .bind (keepsStep_updated h) fun _ => .pure m

theorem keepsStep_transition {principal : Principal} {messageId claimToken : String}
    {expected : DeliveryStatus} {assign : OutboxRow platform → OutboxRow platform}
    (h : ∀ r, r.InStep → (assign r).InStep) :
    KeepsStep (transitionDeliveryRow principal messageId claimToken expected assign) :=
  .bind (.ofExcept _) fun _ => keepsStep_updateRow h

theorem keepsStep_resolve {principal : Principal} {messageId : String}
    {assign : OutboxRow platform → OutboxRow platform} (h : ∀ r, r.InStep → (assign r).InStep) :
    KeepsStep (resolveUncertain principal messageId assign) :=
  .bind (.ofExcept _) fun _ => .bind (.ofExcept _) fun _ => keepsStep_updateRow h

theorem errorColumns_self (error : Option DeliveryError) :
    ErrorColumns (error.map DeliveryError.category) (error.map DeliveryError.code)
      (error.bind DeliveryError.providerCode) (error.map DeliveryError.occurredAt) error :=
  ⟨rfl, rfl, rfl, rfl⟩

theorem inStep_assignError (target : DeliveryStatus) (error : DeliveryError) {r : OutboxRow platform}
    (h : r.InStep) : (assignError target error r).InStep :=
  ⟨rfl, rfl, rfl, rfl, h.nextAttemptAt, h.sendingAt, h.publishedAt, h.attempts,
    errorColumns_self (some error)⟩

/-- A new message has no delivery history, like the columns its row leaves out. -/
theorem inStep_insertedRow {principal : Principal} {event : CloudEvent platform} {key id : String}
    {next : Option Instant} {now : Instant} {fingerprint : Digest} {message : OutboxMessage platform}
    (h : (newMessage principal event key next id now).modelValidate = .ok message) :
    (insertedRow principal event key fingerprint message).InStep := by
  obtain ⟨rfl, -⟩ := OutboxMessage.modelValidate_eq_ok h
  exact ⟨rfl, rfl, rfl, rfl, rfl, rfl, rfl, rfl, errorColumns_self none⟩

theorem keepsStep_add (principal : Principal) (event : CloudEvent platform) (key : String)
    (next : Option DateTime) (messageId : Option String) (fresh : Uuid) (now : Instant) :
    KeepsStep (add principal event key next messageId fresh now) := by
  refine .check fun _ _ => .check fun _ _ => .check fun next _ => .check fun message hm => ?_
  refine .check fun _ _ => .check fun _ _ => .check fun _ _ => .get fun table => ?_
  by_cases hnew : (!table.any (collides (insertedRow principal event key (platform.fingerprint
      (writeDocument event.toCloudEventFields next messageId)) message))) = true
  · simp only [hnew, if_true]
    refine Op.Keeps.check (fun m _ => .bind (.modify fun t ht r hr => ?_) fun _ => .pure m) table
    obtain hr | hr := List.mem_append.mp hr
    · exact ht r hr
    · obtain rfl := List.mem_singleton.mp hr
      exact inStep_insertedRow hm
  · simp only [hnew, Bool.false_eq_true, if_false]
    cases table.find? fun r =>
        decide (r.tenantId = principal.tenantId) && decide (r.idempotencyKey = key) with
    | none => exact Op.Keeps.raise _ table
    | some existing =>
      simp only
      split_ifs
      · exact Op.Keeps.raise _ table
      · exact Op.Keeps.ofExcept _ table

end PostgresOutbox

/-- Every outbox call keeps every row in step. -/
theorem OutboxCall.keepsStep (c : OutboxCall platform) : PostgresOutbox.KeepsStep c.runPostgres := by
  have single : ∀ {x : PostgresOutbox.Method platform (OutboxMessage platform)},
      PostgresOutbox.KeepsStep x → PostgresOutbox.KeepsStep (OutboxCall.single x) :=
    fun hx => hx.bind fun m => .pure [m]
  cases c with
  | add principal event key next messageId fresh now =>
    exact single (PostgresOutbox.keepsStep_add principal event key next messageId fresh now)
  | claimDue principal now limit owner leaseSeconds eventType tokens =>
    refine .bind (.ofExcept _) fun _ => .bind (.ofExcept _) fun now => .bind (.ofExcept _) fun owner =>
      .bind (.ofExcept _) fun claimedUntil => .bind (.ofExcept _) fun _ => ?_
    exact PostgresOutbox.keepsStep_updateSelected fun r h =>
      ⟨rfl, rfl, rfl, rfl, h.nextAttemptAt, h.sendingAt, h.publishedAt, h.attempts, h.lastError⟩
  | markSending principal messageId claimToken startedAt =>
    refine single (.bind (.ofExcept _) fun _ => .bind (.ofExcept _) fun _ => .bind (.ofExcept _)
      fun startedAt => ?_)
    exact PostgresOutbox.keepsStep_transition fun r h =>
      ⟨rfl, h.claimToken, h.claimOwner, h.claimedUntil, h.nextAttemptAt, rfl, h.publishedAt, rfl,
        h.lastError⟩
  | markClaimFailed principal messageId claimToken error =>
    refine single (.bind (.ofExcept _) fun _ => .bind (.ofExcept _) fun _ => ?_)
    exact PostgresOutbox.keepsStep_transition fun r h => PostgresOutbox.inStep_assignError _ _ h
  | markPublished principal messageId claimToken publishedAt clock =>
    refine single (.bind (.ofExcept _) fun _ => .bind (.ofExcept _) fun _ => .bind (.ofExcept _)
      fun publishedAt => ?_)
    exact PostgresOutbox.keepsStep_transition fun r h =>
      ⟨rfl, rfl, rfl, rfl, h.nextAttemptAt, h.sendingAt, rfl, h.attempts,
        PostgresOutbox.errorColumns_self none⟩
  | markFailed principal messageId claimToken error =>
    refine single (.bind (.ofExcept _) fun _ => .bind (.ofExcept _) fun _ => ?_)
    exact PostgresOutbox.keepsStep_transition fun r h => PostgresOutbox.inStep_assignError _ _ h
  | markUncertain principal messageId claimToken error =>
    refine single (.bind (.ofExcept _) fun _ => .bind (.ofExcept _) fun _ => ?_)
    exact PostgresOutbox.keepsStep_transition fun r h => PostgresOutbox.inStep_assignError _ _ h
  | release principal messageId claimToken nextAttemptAt =>
    refine single (.bind (.ofExcept _) fun _ => .bind (.ofExcept _) fun _ => .bind (.ofExcept _)
      fun nextAttemptAt => ?_)
    exact PostgresOutbox.keepsStep_transition fun r h =>
      ⟨rfl, rfl, rfl, rfl, rfl, rfl, h.publishedAt, h.attempts, h.lastError⟩
  | reschedule principal messageId claimToken nextAttemptAt error =>
    refine single (.bind (.ofExcept _) fun _ => .bind (.ofExcept _) fun _ => .bind (.ofExcept _)
      fun nextAttemptAt => ?_)
    exact PostgresOutbox.keepsStep_transition fun r h =>
      ⟨rfl, rfl, rfl, rfl, rfl, rfl, h.publishedAt, h.attempts,
        PostgresOutbox.errorColumns_self (some error)⟩
  | sweepExpiredSending principal now error limit eventType =>
    refine .bind (.ofExcept _) fun _ => .bind (.ofExcept _) fun now => .bind (.ofExcept _) fun _ =>
      .bind (.ofExcept _) fun _ => ?_
    exact PostgresOutbox.keepsStep_updateSelected fun r h =>
      ⟨rfl, rfl, rfl, rfl, h.nextAttemptAt, h.sendingAt, h.publishedAt, h.attempts,
        PostgresOutbox.errorColumns_self (some error)⟩
  | resolveUncertainDelivered principal messageId publishedAt =>
    refine single (.bind (.ofExcept _) fun publishedAt => ?_)
    exact PostgresOutbox.keepsStep_resolve fun r h =>
      ⟨rfl, h.claimToken, h.claimOwner, h.claimedUntil, h.nextAttemptAt, h.sendingAt, rfl, h.attempts,
        PostgresOutbox.errorColumns_self none⟩
  | resolveUncertainRetry principal messageId nextAttemptAt =>
    refine single (.bind (.ofExcept _) fun nextAttemptAt => ?_)
    exact PostgresOutbox.keepsStep_resolve fun r h =>
      ⟨rfl, h.claimToken, h.claimOwner, h.claimedUntil, rfl, rfl, rfl, h.attempts, h.lastError⟩

/-! ## The scheduler table -/

namespace ReminderRow

/-- The trigger assigns three columns and leaves the others alone. -/
theorem syncColumns_frame (old : Option ReminderRow) (new : ReminderRow) (now : Instant) :
    ∃ sent deliveryStatus publishedAt, syncColumns old new now =
      { new with sent, deliveryStatus, publishedAt } := by
  cases old with
  | none =>
    simp only [syncColumns]
    split_ifs
    · exact ⟨true, new.deliveryStatus, new.publishedAt, rfl⟩
    · exact ⟨new.sent, .published, _, rfl⟩
    · exact ⟨_, new.deliveryStatus, new.publishedAt, rfl⟩
  | some old =>
    simp only [syncColumns]
    split_ifs
    · exact ⟨_, new.deliveryStatus, new.publishedAt, rfl⟩
    · exact ⟨new.sent, .published, _, rfl⟩
    · exact ⟨_, new.deliveryStatus, new.publishedAt, rfl⟩

/-- Behind the trigger a row is in step once the columns the trigger does not write are. -/
theorem inStep_syncLegacySent {old : Option ReminderRow} {new : ReminderRow} {now : Instant}
    (attempts : new.attempts = new.payload.attempts)
    (nextAttemptAt : new.nextAttemptAt = new.payload.nextAttemptAt)
    (sendingAt : new.sendingAt = new.payload.sendingAt)
    (lastError : ErrorColumns new.lastErrorCategory new.lastErrorCode new.lastErrorProviderCode
      new.lastErrorAt new.payload.lastError) : (syncLegacySent old new now).InStep := by
  obtain ⟨sent, deliveryStatus, publishedAt, h⟩ := syncColumns_frame old new now
  simp only [syncLegacySent, h]
  exact ⟨rfl, nextAttemptAt, sendingAt, rfl, attempts, lastError, rfl⟩

/-- The unique keys of the row behind the trigger. -/
theorem collides_syncLegacySent (old : Option ReminderRow) (new : ReminderRow) (now : Instant)
    (r : ReminderRow) : (syncLegacySent old new now).collides r = new.collides r ∧
      r.collides (syncLegacySent old new now) = r.collides new := by
  obtain ⟨sent, deliveryStatus, publishedAt, h⟩ := syncColumns_frame old new now
  simp [syncLegacySent, h, collides]

theorem collides_comm (a b : ReminderRow) : a.collides b = b.collides a := by
  simp [collides, eq_comm]

end ReminderRow

namespace PostgresReminderScheduler

open ReminderScheduler PostgresOutbox

/-- Every row is in step, and the unique keys hold. -/
structure InStep (t : ReminderTable) : Prop where
  rows : ∀ r ∈ t, r.InStep
  unique : t.Pairwise fun a b => a.collides b = false

variable {t : ReminderTable}

theorem InStep.empty : InStep [] := ⟨by simp, .nil⟩

/-- Rows with the same primary key are the same row. -/
theorem InStep.eq_of_key (h : InStep t) {a b : ReminderRow} (ha : a ∈ t) (hb : b ∈ t)
    (ht : a.tenantId = b.tenantId) (hk : a.idempotencyKey = b.idempotencyKey) : a = b := by
  by_contra hne
  have hsymm : Std.Symm fun a b : ReminderRow => a.collides b = false :=
    ⟨fun a b hab => by rw [ReminderRow.collides_comm, hab]⟩
  have hcollides := h.unique.forall ha hb hne
  simp [ReminderRow.collides, ht, hk] at hcollides

theorem InStep.append (h : InStep t) {row : ReminderRow} (hrow : row.InStep)
    (hnew : t.any row.collides = false) : InStep (t ++ [row]) := by
  refine ⟨fun r hr => ?_, List.pairwise_append.mpr ⟨h.unique, List.pairwise_singleton _ _, ?_⟩⟩
  · obtain hr | hr := List.mem_append.mp hr
    · exact h.rows r hr
    · exact List.mem_singleton.mp hr ▸ hrow
  · intro a ha b hb
    obtain rfl := List.mem_singleton.mp hb
    rw [ReminderRow.collides_comm]
    simpa using List.any_eq_false.mp hnew a ha

/-- An `UPDATE` whose assignments keep the keys and leave the row in step. -/
theorem InStep.update (h : InStep t) {found : ReminderRow → Bool} {assign : ReminderRow → ReminderRow}
    (now : Instant)
    (keys : ∀ a b, (assign a).collides b = a.collides b ∧ b.collides (assign a) = b.collides a)
    (step : ∀ r ∈ t, found r = true →
      (ReminderRow.syncLegacySent (some r) (assign r) now).InStep) :
    InStep (t.map fun r =>
      if found r then ReminderRow.syncLegacySent (some r) (assign r) now else r) := by
  refine ⟨fun r hr => ?_, ?_⟩
  · obtain ⟨old, hold, rfl⟩ := List.mem_map.mp hr
    split_ifs with hf
    · exact step old hold hf
    · exact h.rows old hold
  · refine h.unique.map _ fun a b hab => ?_
    have hsync : ∀ r : ReminderRow, (∀ c,
        (if found r then ReminderRow.syncLegacySent (some r) (assign r) now else r).collides c =
          r.collides c) ∧ ∀ c : ReminderRow,
        c.collides (if found r then ReminderRow.syncLegacySent (some r) (assign r) now else r) =
          c.collides r := by
      intro r
      split_ifs
      · exact ⟨fun c => (ReminderRow.collides_syncLegacySent _ _ now c).1.trans (keys r c).1,
          fun c => (ReminderRow.collides_syncLegacySent _ _ now c).2.trans (keys r c).2⟩
      · exact ⟨fun _ => rfl, fun _ => rfl⟩
    rw [(hsync a).1, (hsync b).2, hab]

abbrev KeepsStep {α : Type} (x : Method α) : Prop := x.Keeps InStep

theorem keepsStep_scheduleBeforeEvent (platform : Platform) (principal : Principal)
    (request : ScheduleRequest) (offsetAt : Instant → Int) (fresh : Uuid) (now : Instant) :
    KeepsStep (scheduleBeforeEvent platform principal request offsetAt fresh now) := by
  refine .check fun _ _ => .check fun notifyAt _ => .check fun job hjob => .check fun _ _ => ?_
  refine .check fun _ _ => .get fun table htable => ?_
  obtain ⟨-, rfl⟩ := ScheduledReminder.modelValidate_eq_ok hjob
  cases hnew : table.any (ReminderRow.collides _) with
  | false =>
    simp only [Bool.not_false, if_true]
    generalize readPayload platform _ = stored
    cases stored with
    | error e => exact htable
    | ok stored =>
      exact htable.append (ReminderRow.inStep_syncLegacySent rfl rfl rfl (errorColumns_self none)) hnew
  | true =>
    simp only [Bool.not_true, Bool.false_eq_true, if_false]
    cases table.find? fun r => decide (r.tenantId = principal.tenantId) &&
        decide (r.idempotencyKey = request.idempotencyKey) with
    | none =>
      simp only
      split_ifs
      · exact Op.Keeps.raise _ table htable
      · exact Op.Keeps.raise _ table htable
    | some existing =>
      refine Op.Keeps.check (fun stored _ => ?_) table htable
      split_ifs
      · exact .raise _
      · exact .pure stored

/-- The update of one row, when its assignments leave the rows they meet in step. -/
theorem InStep.updateRow (h : InStep t) {found : ReminderRow → Bool} {row : ReminderRow}
    {assign : ReminderRow → ReminderRow} {now : Instant}
    (keys : ∀ a b, (assign a).collides b = a.collides b ∧ b.collides (assign a) = b.collides a)
    (step : ∀ r ∈ t, found r = true →
      (ReminderRow.syncLegacySent (some r) (assign r) now).InStep) :
    InStep (updateRow found row assign now t).2 := by
  unfold PostgresReminderScheduler.updateRow
  generalize require _ (.external "NumericValueOutOfRange") = bounded
  generalize require _ (.integrityError "assistant_scheduled_reminders") = checked
  cases bounded with
  | error e => exact h
  | ok _ =>
    cases checked with
    | error e => exact h
    | ok _ => exact h.update now keys step

theorem keepsStep_mirrorDelivery (principal : Principal) (reminderId : String)
    (message : OutboxMessage platform) (now : Instant) :
    KeepsStep (mirrorDelivery principal reminderId message now) := by
  refine .check fun _ _ => .check fun _ _ => .check fun _ _ => .get fun table htable => ?_
  cases table.find? (isReminder principal reminderId) with
  | none => exact Op.Keeps.raise _ table htable
  | some row =>
    refine Op.Keeps.check (fun job _ => .check fun updated hupdated =>
      .bind (fun t ht => ?_) fun _ => .pure updated) table htable
    obtain ⟨-, rfl⟩ := ScheduledReminder.modelValidate_eq_ok hupdated
    exact ht.updateRow (fun a b => ⟨rfl, rfl⟩) fun r _ _ =>
      ReminderRow.inStep_syncLegacySent rfl rfl rfl (errorColumns_self message.lastError)

theorem keepsStep_markSent (platform : Platform) (principal : Principal) (reminderId : String)
    (clock now : Instant) : KeepsStep (markSent platform principal reminderId clock now) := by
  refine .check fun _ _ => .check fun _ _ => .get fun table htable => ?_
  cases hrow : table.find? (isReminder principal reminderId) with
  | none => exact Op.Keeps.raise _ table htable
  | some row =>
    have hmem := List.mem_of_find?_eq_some hrow
    have htenant : row.tenantId = principal.tenantId := by
      have := List.find?_some hrow
      simp only [isReminder, Bool.and_eq_true, decide_eq_true_eq] at this
      exact this.1
    simp only
    cases hstored : readPayload platform row with
    | error e => exact htable
    | ok stored =>
    obtain ⟨-, rfl⟩ := ScheduledReminder.modelValidate_eq_ok hstored
    rw [Op.ofExcept_ok_bind]
    cases hjob : ScheduledReminder.modelValidate platform _ with
    | error e => exact htable
    | ok job =>
    obtain ⟨-, rfl⟩ := ScheduledReminder.modelValidate_eq_ok hjob
    rw [Op.ofExcept_ok_bind, Op.bind_pure_snd]
    refine htable.updateRow (fun a b => ⟨rfl, rfl⟩) fun r hr hfound => ?_
    simp only [Bool.and_eq_true, decide_eq_true_eq] at hfound
    -- the payload was read from this very row
    obtain rfl := htable.eq_of_key hr hmem (hfound.1.trans htenant.symm) hfound.2
    have hr := htable.rows r hr
    exact ReminderRow.inStep_syncLegacySent hr.attempts hr.nextAttemptAt hr.sendingAt
      (errorColumns_self none)

end PostgresReminderScheduler

/-! ## Histories over both tables -/

structure DeliveryTables (platform : Platform) where
  outbox : OutboxTable platform
  reminders : ReminderTable

/-- A call of the outbox or of the scheduler. -/
inductive DeliveryCall (platform : Platform) where
  | outbox (call : OutboxCall platform)
  | scheduleBeforeEvent (principal : Principal) (request : ReminderScheduler.ScheduleRequest)
      (offsetAt : Instant → Int) (fresh : Uuid)
  | mirrorDelivery (principal : Principal) (reminderId : String) (message : OutboxMessage platform)
  | markSent (principal : Principal) (reminderId : String) (clock : Instant)

namespace DeliveryCall

def onReminders {α : Type} (x : PostgresReminderScheduler.Method α) :
    Op (DeliveryTables platform) PyError Unit :=
  Op.zoom DeliveryTables.reminders (fun t reminders => { t with reminders }) (x >>= fun _ => pure ())

/-- The call, at the transaction time `now`. -/
def run : DeliveryCall platform × Instant → Op (DeliveryTables platform) PyError Unit
  | (outbox call, _) =>
    Op.zoom DeliveryTables.outbox (fun t outbox => { t with outbox })
      (call.runPostgres >>= fun _ => pure ())
  | (scheduleBeforeEvent principal request offsetAt fresh, now) =>
    onReminders (PostgresReminderScheduler.scheduleBeforeEvent platform principal request offsetAt fresh
      now)
  | (mirrorDelivery principal reminderId message, now) =>
    onReminders (PostgresReminderScheduler.mirrorDelivery principal reminderId message now)
  | (markSent principal reminderId clock, now) =>
    onReminders (PostgresReminderScheduler.markSent platform principal reminderId clock now)

end DeliveryCall

/-- Every row of both tables is in step. -/
structure DeliveryTables.InStep (t : DeliveryTables platform) : Prop where
  outbox : PostgresOutbox.InStep t.outbox
  reminders : PostgresReminderScheduler.InStep t.reminders

theorem DeliveryCall.keepsStep (c : DeliveryCall platform × Instant) :
    (DeliveryCall.run c).Keeps DeliveryTables.InStep := by
  have onReminders : ∀ {α : Type} {x : PostgresReminderScheduler.Method α},
      PostgresReminderScheduler.KeepsStep x →
      (DeliveryCall.onReminders x : Op (DeliveryTables platform) PyError Unit).Keeps
        DeliveryTables.InStep := by
    intro α x hx t ht
    exact ⟨ht.outbox, (hx.bind fun _ => .pure ()) t.reminders ht.reminders⟩
  obtain ⟨c, now⟩ := c
  cases c with
  | outbox call =>
    intro t ht
    exact ⟨(call.keepsStep.bind fun _ => .pure ()) t.outbox ht.outbox, ht.reminders⟩
  | scheduleBeforeEvent principal request offsetAt fresh =>
    exact onReminders (PostgresReminderScheduler.keepsStep_scheduleBeforeEvent _ _ _ _ _ now)
  | mirrorDelivery principal reminderId message =>
    exact onReminders (PostgresReminderScheduler.keepsStep_mirrorDelivery _ _ _ now)
  | markSent principal reminderId clock =>
    exact onReminders (PostgresReminderScheduler.keepsStep_markSent _ _ _ _ now)

/-- After any sequence of calls to the outbox and the scheduler, issued to empty tables, columns and
payload of every row denote the same delivery state. -/
theorem delivery_rows_in_step (calls : List (DeliveryCall platform × Instant)) :
    let t := after DeliveryCall.run ⟨[], []⟩ calls
    (∀ r ∈ t.outbox, r.InStep) ∧ ∀ r ∈ t.reminders, r.InStep := by
  intro t
  have ht : t.InStep := after_inv _ (fun _ => True) (fun c t _ ht => DeliveryCall.keepsStep c t ht)
    ⟨fun _ h => (by cases h), .empty⟩ fun _ _ => trivial
  exact ⟨ht.outbox, ht.reminders.rows⟩

end PersonalAssistant
