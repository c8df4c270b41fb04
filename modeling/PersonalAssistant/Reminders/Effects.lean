import PersonalAssistant.Lib.Ports
import PersonalAssistant.Reminders.Workflow

/-!
# Exactly-once effects

The stores hold for an idempotency key of a tenant either nothing or one of each effect, and something
exactly when the workflow state of the key is completed. The invariant is kept by every call a run can
make, so it holds in every interleaving of any runs.
-/
namespace PersonalAssistant

open Lib InMemoryOutbox ReminderIdempotencyIdentity

variable {platform : Platform}

/-! ## Workflow states -/

namespace InMemoryWorkflowStateStore

variable {states states' : InMemoryWorkflowStateStore} {principal : Principal} {state : WorkflowState}

/-- The state of the key is completed. -/
def IsCompleted (states : InMemoryWorkflowStateStore) (k : Key) : Prop :=
  (states.statesByKey.get? k).map WorkflowState.status = some .completed

instance (states : InMemoryWorkflowStateStore) (k : Key) : Decidable (states.IsCompleted k) :=
  inferInstanceAs (Decidable (_ = _))

theorem isCompleted_iff {k : Key} (h : states.statesByKey.get? k = some state) :
    states.IsCompleted k ↔ state.status = .completed := by
  simp [IsCompleted, h]

/-- States stand under their own idempotency key. -/
def Keyed (states : InMemoryWorkflowStateStore) : Prop :=
  ∀ k state, states.statesByKey.get? k = some state → state.idempotencyKey = k.2

theorem isCompleted_set {k j : Key} {ids : Dict Key String} :
    IsCompleted ⟨states.statesByKey.set k state, ids⟩ j ↔
      if j = k then state.status = .completed else states.IsCompleted j := by
  unfold IsCompleted
  rw [Dict.get?_set]
  split_ifs with hj <;> simp

theorem Keyed.set {k : Key} (h : states.Keyed) (hk : state.idempotencyKey = k.2) {ids : Dict Key String} :
    Keyed ⟨states.statesByKey.set k state, ids⟩ := by
  intro j st hj
  rw [Dict.get?_set] at hj
  split_ifs at hj with hjk
  · cases hj; rw [hjk]; exact hk
  · exact h j st hj

/-- A registration completes no state, and the state it returns stands under the registered key. -/
theorem Keyed.register {resumeFromStep : Option String} {now : Instant}
    {r : Except PyError WorkflowStateRegistration} (h : states.Keyed) (hs : state.status ≠ .completed)
    (hrun : registerOrReplay principal state resumeFromStep now states = (r, states')) :
    states'.Keyed ∧ (∀ k, states'.IsCompleted k ↔ states.IsCompleted k) ∧
      ∀ registration, r = .ok registration →
        registration.state.idempotencyKey = state.idempotencyKey ∧
        (registration.replayed = true → states' = states ∧
          states.statesByKey.get? (principal.tenantId, state.idempotencyKey) =
            some registration.state) ∧
        (registration.replayed = false →
          ¬ states.IsCompleted (principal.tenantId, state.idempotencyKey)) := by
  obtain ⟨e, rfl, rfl⟩ | ⟨-, -, ⟨existing, hk, -, -, ⟨-, rfl, rfl⟩ | ⟨hres, rfl, rfl⟩⟩ | ⟨hk, -, rfl, rfl⟩⟩ :=
    registerOrReplay_cases hrun
  · exact ⟨h, fun _ => Iff.rfl, by simp⟩
  · refine ⟨h, fun _ => Iff.rfl, fun registration hreg => ?_⟩
    cases hreg
    exact ⟨h _ _ hk, fun _ => ⟨rfl, hk⟩, by simp⟩
  · have hwait : existing.status = .waitingApproval := by
      simp only [resumable, Bool.and_eq_true, decide_eq_true_eq] at hres
      exact hres.1.2
    have hnot : ¬ states.IsCompleted (principal.tenantId, state.idempotencyKey) := by
      simp [isCompleted_iff hk, hwait]
    have hkey : (existing.transition .running none [] now).idempotencyKey = state.idempotencyKey :=
      h _ _ hk
    refine ⟨h.set hkey, fun k => ?_, fun registration hreg => ?_⟩
    · rw [setState, isCompleted_set]
      split_ifs with hj
      · subst hj
        simpa [WorkflowState.transition] using hnot
      · rfl
    · cases hreg
      exact ⟨h _ _ hk, by simp, fun _ => hnot⟩
  · have hnot : ¬ states.IsCompleted (principal.tenantId, state.idempotencyKey) := by
      simp [IsCompleted, hk]
    refine ⟨h.set rfl, fun k => ?_, fun registration hreg => ?_⟩
    · rw [isCompleted_set]
      split_ifs with hj
      · subst hj
        simp [hs, hnot]
      · rfl
    · cases hreg
      exact ⟨rfl, by simp, fun _ => hnot⟩

/-- An upsert changes the completion of its own key only, and never undoes it. -/
theorem Keyed.upsert {r : Except PyError WorkflowState} (h : states.Keyed)
    (hrun : upsert platform principal state states = (r, states')) :
    states'.Keyed ∧ ((∃ e, r = .error e ∧ states' = states) ∨
      (states.IsCompleted (principal.tenantId, state.idempotencyKey) → state.status = .completed) ∧
      ∀ k, states'.IsCompleted k ↔ if k = (principal.tenantId, state.idempotencyKey) then
        state.status = .completed else states.IsCompleted k) := by
  obtain ⟨e, rfl, rfl⟩ | ⟨-, -, -, hrep, rfl, rfl⟩ := upsert_cases hrun
  · exact ⟨h, .inl ⟨e, rfl, rfl⟩⟩
  · refine ⟨h.set rfl, .inr ⟨?_, fun k => isCompleted_set⟩⟩
    intro hcomp
    obtain ⟨existing, hex, hst⟩ := Option.map_eq_some_iff.mp hcomp
    obtain ⟨-, -, -, hterm⟩ := requireReplaceable_eq_ok (hrep existing hex)
    exact (hterm (by simp [hst, WorkflowStatus.isTerminal])).1.trans hst

end InMemoryWorkflowStateStore

/-! ## Effects of a key -/

/-- The records the stores hold for one key. -/
structure ReminderEffects (platform : Platform) where
  events : List CalendarEventResult
  reminders : List ScheduledReminder
  created : List (CloudEvent platform)
  requested : List (CloudEvent platform)
  messages : List (OutboxMessage platform)

namespace ReminderEffects

def empty : ReminderEffects platform := ⟨[], [], [], [], []⟩

/-- One of each, with the given identifiers. -/
structure Complete (ids : ReminderEffectIds) (f : ReminderEffects platform) : Prop where
  events : ∃ e, f.events = [e] ∧ e.eventId = ids.calendarEventId
  reminders : ∃ r, f.reminders = [r] ∧ r.reminderId = ids.reminderId
  created : ∃ e, f.created = [e] ∧ e.id = ids.reminderCreatedEventId
  requested : ∃ e, f.requested = [e] ∧ e.id = ids.notificationRequestedEventId
  messages : ∃ m, f.messages = [m] ∧ m.id = ids.outboxMessageId

/-- There is something of each. -/
def isFull (f : ReminderEffects platform) : Bool :=
  !f.events.isEmpty && !f.reminders.isEmpty && !f.created.isEmpty && !f.requested.isEmpty &&
    !f.messages.isEmpty

end ReminderEffects

namespace ReminderStores

/-- Whatever a store holds for the key: by idempotency key, by correlation identifier for the events. -/
def effects (s : ReminderStores platform) (tenantId key : String) : ReminderEffects platform where
  events := (s.calendar.eventsByKey.entries.filter fun e =>
    e.1.1 = tenantId && e.2.idempotencyKey = key ++ ":calendar").map Prod.snd
  reminders := (s.scheduler.jobsByKey.entries.filter fun e =>
    e.1.1 = tenantId && e.2.idempotencyKey = key ++ ":notify").map Prod.snd
  created := (s.eventStore.eventsByKey.entries.filter fun e =>
    e.1.1 = tenantId && e.2.type = "reminder.created" && e.2.correlationId = key).map Prod.snd
  requested := (s.outbox.messagesByKey.entries.filter fun e =>
    e.1.1 = tenantId && e.2.event.type = "notification.requested" &&
      e.2.event.correlationId = key).map fun e => e.2.event
  messages := (s.outbox.messagesByKey.entries.filter fun e =>
    e.1.1 = tenantId && e.2.idempotencyKey = key ++ ":outbox").map Prod.snd

/-- All effects or none, and all exactly when the state is completed. -/
def ExactlyOnce (s : ReminderStores platform) (tenantId : String) (d : ReminderIdempotencyIdentity) :
    Prop :=
  (s.effects tenantId (d.idempotencyKey platform) = .empty ∧
      ¬ s.states.IsCompleted (tenantId, d.idempotencyKey platform)) ∨
    ((s.effects tenantId (d.idempotencyKey platform)).Complete (.fromIdentity platform d) ∧
      s.states.IsCompleted (tenantId, d.idempotencyKey platform))

/-! ## The invariant -/

/-- Every record is an effect of some identity of `D` and stands under the key of that identity. -/
structure Owned (D : Set ReminderIdempotencyIdentity) (s : ReminderStores platform) : Prop where
  events : ∀ k e, s.calendar.eventsByKey.get? k = some e → ∃ d ∈ D,
    k.2 = d.idempotencyKey platform ++ ":calendar" ∧ e.idempotencyKey = k.2 ∧
      e.eventId = d.effectId platform .calendarEvent
  reminders : ∀ k r, s.scheduler.jobsByKey.get? k = some r → ∃ d ∈ D,
    k.2 = d.idempotencyKey platform ++ ":notify" ∧ r.idempotencyKey = k.2 ∧
      r.reminderId = d.effectId platform .reminder
  created : ∀ k e, s.eventStore.eventsByKey.get? k = some e → ∃ d ∈ D,
    k.2 = d.effectId platform .reminderCreated ∧ e.id = k.2 ∧ e.type = "reminder.created" ∧
      e.correlationId = d.idempotencyKey platform
  messages : ∀ k m, s.outbox.messagesByKey.get? k = some m → ∃ d ∈ D,
    k.2 = d.idempotencyKey platform ++ ":outbox" ∧ m.idempotencyKey = k.2 ∧
      m.id = d.effectId platform .outboxMessage ∧ m.event.type = "notification.requested" ∧
      m.event.correlationId = d.idempotencyKey platform ∧
      m.event.id = d.effectId platform .notificationRequested
  states : s.states.Keyed

/-- The slots of an identity are filled exactly when its state is completed. -/
structure Agree (s : ReminderStores platform) (tenantId : String) (d : ReminderIdempotencyIdentity) :
    Prop where
  events : (s.calendar.eventsByKey.get?
      (tenantId, d.idempotencyKey platform ++ ":calendar")).isSome ↔
    s.states.IsCompleted (tenantId, d.idempotencyKey platform)
  reminders : (s.scheduler.jobsByKey.get?
      (tenantId, d.idempotencyKey platform ++ ":notify")).isSome ↔
    s.states.IsCompleted (tenantId, d.idempotencyKey platform)
  created : (s.eventStore.eventsByKey.get? (tenantId, d.effectId platform .reminderCreated)).isSome ↔
    s.states.IsCompleted (tenantId, d.idempotencyKey platform)
  messages : (s.outbox.messagesByKey.get?
      (tenantId, d.idempotencyKey platform ++ ":outbox")).isSome ↔
    s.states.IsCompleted (tenantId, d.idempotencyKey platform)

structure EffectInv (D : Set ReminderIdempotencyIdentity) (s : ReminderStores platform) : Prop where
  owned : s.Owned D
  agree : ∀ tenantId, ∀ d ∈ D, s.Agree tenantId d

/-! ## The invariant gives exactly-once -/

variable {s s' : ReminderStores platform} {D : Set ReminderIdempotencyIdentity}
  {d : ReminderIdempotencyIdentity} {tenantId : String}

theorem key_append_inj {d d' : ReminderIdempotencyIdentity} {suffix : String} :
    d.idempotencyKey platform ++ suffix = d'.idempotencyKey platform ++ suffix ↔
      d.idempotencyKey platform = d'.idempotencyKey platform := String.append_left_inj _

/-- The effects of an identity are what stands in its slots. -/
theorem effects_eq (free : CollisionFree platform D) (owned : s.Owned D) (hd : d ∈ D) :
    s.effects tenantId (d.idempotencyKey platform) = {
      events := (s.calendar.eventsByKey.get?
        (tenantId, d.idempotencyKey platform ++ ":calendar")).toList
      reminders := (s.scheduler.jobsByKey.get?
        (tenantId, d.idempotencyKey platform ++ ":notify")).toList
      created := (s.eventStore.eventsByKey.get?
        (tenantId, d.effectId platform .reminderCreated)).toList
      requested := (s.outbox.messagesByKey.get?
        (tenantId, d.idempotencyKey platform ++ ":outbox")).toList.map OutboxMessage.event
      messages := (s.outbox.messagesByKey.get?
        (tenantId, d.idempotencyKey platform ++ ":outbox")).toList } := by
  have hevents := @Dict.filter_entries _ _ _ s.calendar.eventsByKey (fun e =>
    e.1.1 = tenantId && e.2.idempotencyKey = d.idempotencyKey platform ++ ":calendar")
    (tenantId, d.idempotencyKey platform ++ ":calendar") (by
      intro e he
      obtain ⟨d', -, -, hkey, -⟩ := owned.events e.1 e.2 (Dict.mem_entries.mp he)
      simp [hkey, Prod.ext_iff])
  have hreminders := @Dict.filter_entries _ _ _ s.scheduler.jobsByKey (fun e =>
    e.1.1 = tenantId && e.2.idempotencyKey = d.idempotencyKey platform ++ ":notify")
    (tenantId, d.idempotencyKey platform ++ ":notify") (by
      intro e he
      obtain ⟨d', -, -, hkey, -⟩ := owned.reminders e.1 e.2 (Dict.mem_entries.mp he)
      simp [hkey, Prod.ext_iff])
  have hcreated := @Dict.filter_entries _ _ _ s.eventStore.eventsByKey (fun e =>
    e.1.1 = tenantId && e.2.type = "reminder.created" &&
      e.2.correlationId = d.idempotencyKey platform)
    (tenantId, d.effectId platform .reminderCreated) (by
      intro e he
      obtain ⟨d', hd', hk, -, htype, hcorr⟩ := owned.created e.1 e.2 (Dict.mem_entries.mp he)
      have hiff : d'.idempotencyKey platform = d.idempotencyKey platform ↔
          d'.effectId platform .reminderCreated = d.effectId platform .reminderCreated :=
        ⟨fun h => by rw [eq_of_idempotencyKey free hd' hd h], fun h => by
          rw [eq_of_effectId free hd' hd h]⟩
      simp [htype, hcorr, hk, Prod.ext_iff, hiff])
  have hmessages := @Dict.filter_entries _ _ _ s.outbox.messagesByKey (fun e =>
    e.1.1 = tenantId && e.2.idempotencyKey = d.idempotencyKey platform ++ ":outbox")
    (tenantId, d.idempotencyKey platform ++ ":outbox") (by
      intro e he
      obtain ⟨d', -, -, hkey, -⟩ := owned.messages e.1 e.2 (Dict.mem_entries.mp he)
      simp [hkey, Prod.ext_iff])
  have hrequested := @Dict.filter_entries _ _ _ s.outbox.messagesByKey (fun e =>
    e.1.1 = tenantId && e.2.event.type = "notification.requested" &&
      e.2.event.correlationId = d.idempotencyKey platform)
    (tenantId, d.idempotencyKey platform ++ ":outbox") (by
      intro e he
      obtain ⟨d', -, hk, -, -, htype, hcorr, -⟩ := owned.messages e.1 e.2 (Dict.mem_entries.mp he)
      simp [htype, hcorr, hk, Prod.ext_iff])
  simp only [effects, hevents, hreminders, hcreated, hmessages, ← hrequested, List.map_map]
  rfl

/-- Nothing stands in the slots of an unfinished identity. -/
theorem Agree.none (h : s.Agree tenantId d)
    (hc : ¬ s.states.IsCompleted (tenantId, d.idempotencyKey platform)) :
    s.calendar.eventsByKey.get? (tenantId, d.idempotencyKey platform ++ ":calendar") = none ∧
      s.scheduler.jobsByKey.get? (tenantId, d.idempotencyKey platform ++ ":notify") = none ∧
      s.eventStore.eventsByKey.get? (tenantId, d.effectId platform .reminderCreated) = none ∧
      s.outbox.messagesByKey.get? (tenantId, d.idempotencyKey platform ++ ":outbox") = none := by
  refine ⟨?_, ?_, ?_, ?_⟩
  · exact Option.not_isSome_iff_eq_none.mp fun hs => hc (h.events.mp hs)
  · exact Option.not_isSome_iff_eq_none.mp fun hs => hc (h.reminders.mp hs)
  · exact Option.not_isSome_iff_eq_none.mp fun hs => hc (h.created.mp hs)
  · exact Option.not_isSome_iff_eq_none.mp fun hs => hc (h.messages.mp hs)

theorem EffectInv.exactlyOnce (free : CollisionFree platform D) (h : s.EffectInv D) (hd : d ∈ D) :
    s.ExactlyOnce tenantId d := by
  have ha := h.agree tenantId d hd
  have heff := @effects_eq _ s D d tenantId free h.owned hd
  unfold ExactlyOnce
  rw [heff]
  by_cases hc : s.states.IsCompleted (tenantId, d.idempotencyKey platform)
  · right
    obtain ⟨e, he⟩ := Option.isSome_iff_exists.mp (ha.events.mpr hc)
    obtain ⟨r, hr⟩ := Option.isSome_iff_exists.mp (ha.reminders.mpr hc)
    obtain ⟨c, hcr⟩ := Option.isSome_iff_exists.mp (ha.created.mpr hc)
    obtain ⟨m, hm⟩ := Option.isSome_iff_exists.mp (ha.messages.mpr hc)
    obtain ⟨d₁, hd₁, hk₁, -, hid₁⟩ := h.owned.events _ _ he
    obtain ⟨d₂, hd₂, hk₂, -, hid₂⟩ := h.owned.reminders _ _ hr
    obtain ⟨d₃, hd₃, hk₃, hid₃, -⟩ := h.owned.created _ _ hcr
    obtain ⟨d₄, hd₄, hk₄, -, hid₄, -, -, hev₄⟩ := h.owned.messages _ _ hm
    obtain rfl := eq_of_idempotencyKey free hd hd₁ (key_append_inj.mp hk₁)
    obtain rfl := eq_of_idempotencyKey free hd hd₂ (key_append_inj.mp hk₂)
    obtain rfl := eq_of_idempotencyKey free hd hd₄ (key_append_inj.mp hk₄)
    rw [he, hr, hcr, hm]
    exact ⟨⟨⟨e, rfl, hid₁⟩, ⟨r, rfl, hid₂⟩, ⟨c, rfl, hid₃⟩, ⟨m.event, rfl, hev₄⟩, ⟨m, rfl, hid₄⟩⟩, hc⟩
  · left
    obtain ⟨he, hr, hcr, hm⟩ := ha.none hc
    rw [he, hr, hcr, hm]
    exact ⟨rfl, hc⟩

end ReminderStores

/-! ## The creating block -/

namespace ApprovedRun

variable {run : ApprovedRun platform} {env : Surroundings} {principal : Principal}
  {s s' : ReminderStores platform}

/-- Only an unfinished state lets a block go past its registration. -/
theorem replayed_eq_false_or_pending {registration : WorkflowStateRegistration}
    (h : run.registrationResult env registration = .ok none) :
    registration.replayed = false ∨ registration.state.status = .pending := by
  obtain ⟨replay, hreplay, h⟩ := except_bind_eq_ok.mp h
  cases replay with
  | some replay =>
    obtain ⟨_, -, h⟩ := except_bind_eq_ok.mp h
    obtain ⟨_, -, h⟩ := except_bind_eq_ok.mp h
    cases h
  | none =>
    by_contra hne
    rw [not_or, Bool.not_eq_false] at hne
    unfold ReminderWorkflow.replayOf at hreplay
    simp only [hne.1, Bool.not_true, Bool.false_eq_true, if_false] at hreplay
    cases hst : registration.state.status with
    | pending => exact hne.2 hst
    | waitingApproval =>
      simp only [hst] at hreplay
      split_ifs at hreplay
      · obtain ⟨_, -, hreplay⟩ := except_bind_eq_ok.mp hreplay
        obtain ⟨_, -, hreplay⟩ := except_bind_eq_ok.mp hreplay
        cases hreplay
      · obtain ⟨_, -, hreplay⟩ := except_bind_eq_ok.mp hreplay
        cases hreplay
    | _ =>
      simp only [hst] at hreplay
      obtain ⟨_, -, hreplay⟩ := except_bind_eq_ok.mp hreplay
      cases hreplay

/-- What `run` guarantees about the argument of a block. -/
structure Proper (D : Set ReminderIdempotencyIdentity) (run : ApprovedRun platform) : Prop where
  identity : run.idempotency.identity ∈ D
  key : run.initialState.idempotencyKey = run.key
  status : run.initialState.status = .running

/-- A block past its registration works on an unfinished state of its own key. -/
theorem unfinished_of_register {registration : WorkflowStateRegistration}
    {states : InMemoryWorkflowStateStore} {D : Set ReminderIdempotencyIdentity}
    (proper : run.Proper D) (keyed : s.states.Keyed)
    (register : run.Registers env principal s.states registration states)
    (fresh : run.registrationResult env registration = .ok none) :
    states.Keyed ∧ (∀ k, states.IsCompleted k ↔ s.states.IsCompleted k) ∧
      registration.state.idempotencyKey = run.key ∧
      ¬ s.states.IsCompleted (principal.tenantId, run.key) := by
  obtain ⟨hkeyed, hcomp, hreg⟩ := keyed.register (by simp [proper.status]) register
  obtain ⟨hkey, hreplayed, hnot⟩ := hreg registration rfl
  rw [proper.key] at hkey hreplayed hnot
  refine ⟨hkeyed, hcomp, hkey, ?_⟩
  rcases Bool.eq_false_or_eq_true registration.replayed with hr | hr
  · rw [InMemoryWorkflowStateStore.isCompleted_iff (hreplayed hr).2]
    rcases replayed_eq_false_or_pending fresh with hf | hp
    · simp [hr] at hf
    · simp [hp]
  · exact hnot hr

/-- A creation filled the four slots of its key and completed its state. -/
structure Created (run : ApprovedRun platform) (principal : Principal)
    (extraction : ReminderExtraction platform) (s s' : ReminderStores platform)
    (event : CalendarEventResult) (reminder : ScheduledReminder) (created : CloudEvent platform)
    (message : OutboxMessage platform) : Prop where
  calendar : s'.calendar.eventsByKey =
    s.calendar.eventsByKey.set (principal.tenantId, run.key ++ ":calendar") event
  scheduler : s'.scheduler.jobsByKey =
    s.scheduler.jobsByKey.set (principal.tenantId, run.key ++ ":notify") reminder
  eventStore : s'.eventStore.eventsByKey =
    s.eventStore.eventsByKey.set (principal.tenantId, run.ids.reminderCreatedEventId) created
  outbox : s'.outbox.messagesByKey =
    s.outbox.messagesByKey.set (principal.tenantId, run.key ++ ":outbox") message
  keyed : s'.states.Keyed
  states : ∀ k, s'.states.IsCompleted k ↔
    k = (principal.tenantId, run.key) ∨ s.states.IsCompleted k
  event_eq : event = {
    eventId := run.ids.calendarEventId, title := extraction.title.text
    startsAt := extraction.startsAt, timezone := extraction.timezone.text
    idempotencyKey := run.key ++ ":calendar", sourceEventId := some run.sourceEventId
    payloadFingerprint := some run.fingerprint, reused := false }
  reminder_key : reminder.idempotencyKey = run.key ++ ":notify"
  reminder_id : reminder.reminderId = run.ids.reminderId
  created_id : created.id = run.ids.reminderCreatedEventId
  created_type : created.type = "reminder.created"
  created_correlation : created.correlationId = run.key
  message_key : message.idempotencyKey = run.key ++ ":outbox"
  message_id : message.id = run.ids.outboxMessageId
  requested_id : message.event.id = run.ids.notificationRequestedEventId
  requested_type : message.event.type = "notification.requested"
  requested_correlation : message.event.correlationId = run.key

/-- The identifier of a calendar request that names one. -/
theorem eventIdOf_eq {request : CalendarEventRequest} {fresh : Uuid} {kind : EffectKind}
    {d : ReminderIdempotencyIdentity} (h : request.eventId = some (d.effectId platform kind)) :
    LocalCalendarTool.eventIdOf request fresh = d.effectId platform kind := by
  simp [LocalCalendarTool.eventIdOf, h, effectId_ne]

/-- Validation leaves the identity of a requested message alone. -/
theorem newMessage_trimmed {event : CloudEvent platform} {next : Option Instant} {now : Instant} :
    (newMessage principal event (run.key ++ ":outbox") next run.ids.outboxMessageId now).trimmed =
      newMessage principal event (run.key ++ ":outbox") next run.ids.outboxMessageId now := by
  have hid : trim run.ids.outboxMessageId = run.ids.outboxMessageId := trimmed_effectId _ _
  have hkey : trim (run.key ++ ":outbox") = run.key ++ ":outbox" :=
    trimmed_idempotencyKey_append _ (forall_not_isSpace (by decide))
  have hten : trim principal.tenantId = principal.tenantId := principal.tenant.trimmed
  simp [OutboxMessage.trimmed, newMessage, hid, hkey, hten]

variable {extraction : ReminderExtraction platform} {event : CalendarEventResult}
  {reminder : ScheduledReminder}

theorem createEvent_spec {request : CalendarEventRequest} {calendar : LocalCalendarTool}
    (free : s.calendar.eventsByKey.get? (principal.tenantId, run.key ++ ":calendar") = none)
    (request_eq : run.eventRequest extraction = .ok request)
    (h : LocalCalendarTool.createEvent platform principal request run.request.approval env.fresh
      env.approvedAt s.calendar = (.ok event, calendar)) :
    calendar.eventsByKey =
        s.calendar.eventsByKey.set (principal.tenantId, run.key ++ ":calendar") event ∧
      event = {
        eventId := run.ids.calendarEventId, title := extraction.title.text
        startsAt := extraction.startsAt, timezone := extraction.timezone.text
        idempotencyKey := run.key ++ ":calendar", sourceEventId := some run.sourceEventId
        payloadFingerprint := some run.fingerprint, reused := false } := by
  have hreq := CalendarEventRequest.create_eq_ok request_eq
  obtain ⟨e, he, -⟩ | ⟨-, ⟨stored, hstored, -⟩ | ⟨-, -, hevent, rfl⟩⟩ :=
    LocalCalendarTool.createEvent_cases h
  · cases he
  · rw [hreq] at hstored
    exact absurd (hstored.symm.trans free) (by simp)
  · have hid : LocalCalendarTool.eventIdOf request env.fresh = run.ids.calendarEventId :=
      eventIdOf_eq (by rw [hreq]; rfl)
    rw [hid] at hevent ⊢
    cases hevent
    rw [hreq]
    exact ⟨rfl, rfl⟩

theorem schedule_spec {body : String} {scheduler : ReminderScheduler}
    (free : s.scheduler.jobsByKey.get? (principal.tenantId, run.key ++ ":notify") = none)
    (h : ReminderScheduler.scheduleBeforeEvent platform principal
      (run.scheduleRequest extraction event.eventId body) env.fresh s.scheduler =
      (.ok reminder, scheduler)) :
    scheduler.jobsByKey =
        s.scheduler.jobsByKey.set (principal.tenantId, run.key ++ ":notify") reminder ∧
      reminder.idempotencyKey = run.key ++ ":notify" ∧ reminder.reminderId = run.ids.reminderId := by
  obtain ⟨e, he, -⟩ | ⟨notifyAt, job, -, -, hjob, ⟨stored, hstored, -⟩ | ⟨-, -, hr, rfl⟩⟩ :=
    ReminderScheduler.scheduleBeforeEvent_cases h
  · cases he
  · exact absurd (hstored.symm.trans free) (by simp)
  · cases hr
    obtain ⟨-, rfl⟩ := ScheduledReminder.modelValidate_eq_ok hjob
    exact ⟨rfl, rfl, rfl⟩

theorem append_spec {created appended : CloudEvent platform} {eventStore : InMemoryEventStore platform}
    (free : s.eventStore.eventsByKey.get?
      (principal.tenantId, run.ids.reminderCreatedEventId) = none)
    (created_eq : CloudEvent.create platform
      (run.reminderCreated env principal extraction event.eventId reminder) = .ok created)
    (h : InMemoryEventStore.append principal created s.eventStore = (.ok appended, eventStore)) :
    eventStore.eventsByKey = s.eventStore.eventsByKey.set
        (principal.tenantId, run.ids.reminderCreatedEventId) created ∧
      created.id = run.ids.reminderCreatedEventId ∧ created.type = "reminder.created" ∧
      created.correlationId = run.key := by
  have hfields := CloudEvent.create_eq_ok created_eq
  have hid : created.id = run.ids.reminderCreatedEventId := by
    rw [hfields]; exact trimmed_effectId _ _
  obtain ⟨e, he, -⟩ | ⟨-, -, ⟨stored, hstored, -⟩ | ⟨-, -, rfl⟩⟩ := InMemoryEventStore.append_cases h
  · cases he
  · rw [hid] at hstored
    exact absurd (hstored.symm.trans free) (by simp)
  · rw [hid]
    refine ⟨rfl, rfl, ?_, ?_⟩
    · rw [hfields]
      exact (by decide : trim "reminder.created" = "reminder.created")
    · rw [hfields]; exact trimmed_idempotencyKey _

theorem add_spec {requested : CloudEvent platform} {message : OutboxMessage platform}
    {outbox : InMemoryOutbox platform}
    (free : s.outbox.messagesByKey.get? (principal.tenantId, run.key ++ ":outbox") = none)
    (requested_eq : CloudEvent.create platform
      (run.notificationRequested env principal extraction event.eventId reminder) = .ok requested)
    (h : InMemoryOutbox.add principal requested (run.key ++ ":outbox")
      (some (.ofInstant reminder.notifyAt)) (some run.ids.outboxMessageId) env.fresh env.storedAt
      s.outbox = (.ok message, outbox)) :
    outbox.messagesByKey =
        s.outbox.messagesByKey.set (principal.tenantId, run.key ++ ":outbox") message ∧
      message.idempotencyKey = run.key ++ ":outbox" ∧ message.id = run.ids.outboxMessageId ∧
      message.event = requested ∧ requested.id = run.ids.notificationRequestedEventId ∧
      requested.type = "notification.requested" ∧ requested.correlationId = run.key := by
  have hfields := CloudEvent.create_eq_ok requested_eq
  obtain ⟨e, he, -⟩ | ⟨next, -, -, -, ⟨stored, hstored, -⟩ | ⟨m, -, hm, -, -, hr, rfl⟩⟩ :=
    InMemoryOutbox.add_cases h
  · cases he
  · exact absurd (hstored.symm.trans free) (by simp)
  · cases hr
    have hmsg := (OutboxMessage.modelValidate_eq_ok hm).1
    rw [Option.getD_some, newMessage_trimmed] at hmsg
    subst hmsg
    refine ⟨rfl, rfl, rfl, rfl, ?_, ?_, ?_⟩
    · rw [hfields]; exact trimmed_effectId _ _
    · rw [hfields]
      exact (by decide : trim "notification.requested" = "notification.requested")
    · rw [hfields]; exact trimmed_idempotencyKey _

theorem Outcome.created_spec {D : Set ReminderIdempotencyIdentity} {notice : Int}
    (proper : run.Proper D) (inv : s.EffectInv D)
    (h : run.Outcome env principal s (.ok (.created event reminder notice)) s') :
    ∃ extraction created message, run.extraction = some extraction ∧
      run.Created principal extraction s s' event reminder created message := by
  cases h with
  | @created registration stored extraction request _ _ body created appended requested message
      calendar scheduler eventStore outbox states states' register fresh dated request_eq createEvent
      schedule created_eq append requested_eq add upsert =>
    obtain ⟨hkeyed, hcomp, hkey, hnot⟩ :=
      unfinished_of_register proper inv.owned.states register fresh
    obtain ⟨hcal, hjob, hevt, hmsg⟩ := (inv.agree principal.tenantId _ proper.identity).none hnot
    obtain ⟨hcalendar, hevent⟩ := createEvent_spec hcal request_eq createEvent
    obtain ⟨hscheduler, hrkey, hrid⟩ := schedule_spec hjob schedule
    obtain ⟨hstore, hcid, hctype, hccorr⟩ := append_spec hevt created_eq append
    obtain ⟨houtbox, hmkey, hmid, hmev, hqid, hqtype, hqcorr⟩ := add_spec hmsg requested_eq add
    obtain ⟨hkeyed', ⟨e, he, -⟩ | ⟨-, hcomp'⟩⟩ := hkeyed.upsert upsert
    · cases he
    refine ⟨extraction, created, message, dated, {
      calendar := hcalendar, scheduler := hscheduler, eventStore := hstore, outbox := houtbox
      keyed := hkeyed', event_eq := hevent, reminder_key := hrkey, reminder_id := hrid
      created_id := hcid, created_type := hctype, created_correlation := hccorr
      message_key := hmkey, message_id := hmid, requested_id := hmev ▸ hqid
      requested_type := hmev ▸ hqtype, requested_correlation := hmev ▸ hqcorr
      states := fun k => ?_ }⟩
    have hstatus : (registration.state.transition .completed (some ReminderWorkflowStep.completed)
        (run.completedData extraction event.eventId reminder) env.transitionedAt).idempotencyKey =
        run.key := hkey
    rw [hcomp' k, hstatus]
    split_ifs with hk
    · simp [hk, WorkflowState.transition]
    · simp [hk, hcomp k]

end ApprovedRun

/-! ## One call -/

namespace ReminderStores

variable {s s' : ReminderStores platform} {D : Set ReminderIdempotencyIdentity}
  {run : ApprovedRun platform} {principal : Principal}

/-- A change of the workflow states that completes nothing keeps the invariant. -/
theorem EffectInv.setStates (h : s.EffectInv D) {states : InMemoryWorkflowStateStore}
    (keyed : states.Keyed) (same : ∀ k, states.IsCompleted k ↔ s.states.IsCompleted k) :
    EffectInv D { s with states := states } where
  owned := { h.owned with states := keyed }
  agree tenantId d hd := by
    obtain ⟨he, hr, hc, hm⟩ := h.agree tenantId d hd
    have hsame := same (tenantId, d.idempotencyKey platform)
    exact ⟨he.trans hsame.symm, hr.trans hsame.symm, hc.trans hsame.symm, hm.trans hsame.symm⟩

/-- A creation keeps the invariant. -/
theorem EffectInv.create {extraction : ReminderExtraction platform} {event : CalendarEventResult}
    {reminder : ScheduledReminder} {created : CloudEvent platform} {message : OutboxMessage platform}
    (free : CollisionFree platform D) (h : s.EffectInv D) (proper : run.Proper D)
    (hc : run.Created principal extraction s s' event reminder created message) : s'.EffectInv D := by
  have hd₀ := proper.identity
  refine ⟨⟨?_, ?_, ?_, ?_, hc.keyed⟩, fun tenantId d hd => ?_⟩
  · intro k e he
    rw [hc.calendar, Dict.get?_set] at he
    split_ifs at he with hk
    · cases he
      exact ⟨_, hd₀, by rw [hk]; rfl, by rw [hk, hc.event_eq], by rw [hc.event_eq]; rfl⟩
    · exact h.owned.events k e he
  · intro k r hr
    rw [hc.scheduler, Dict.get?_set] at hr
    split_ifs at hr with hk
    · cases hr
      exact ⟨_, hd₀, by rw [hk]; rfl, by rw [hk, hc.reminder_key], hc.reminder_id⟩
    · exact h.owned.reminders k r hr
  · intro k e he
    rw [hc.eventStore, Dict.get?_set] at he
    split_ifs at he with hk
    · cases he
      exact ⟨_, hd₀, by rw [hk]; rfl, by rw [hk, hc.created_id], hc.created_type,
        hc.created_correlation⟩
    · exact h.owned.created k e he
  · intro k m hm
    rw [hc.outbox, Dict.get?_set] at hm
    split_ifs at hm with hk
    · cases hm
      exact ⟨_, hd₀, by rw [hk]; rfl, by rw [hk, hc.message_key], hc.message_id, hc.requested_type,
        hc.requested_correlation, hc.requested_id⟩
    · exact h.owned.messages k m hm
  · -- the slots of another identity are untouched, those of this one are now filled
    have hkey : d.idempotencyKey platform = run.key → d = run.idempotency.identity :=
      fun he => eq_of_idempotencyKey free hd hd₀ he
    have hid : d.effectId platform .reminderCreated = run.ids.reminderCreatedEventId →
        d = run.idempotency.identity := fun he => eq_of_effectId free hd hd₀ he
    obtain ⟨he, hr, hcr, hm⟩ := h.agree tenantId d hd
    have hkeys : ∀ suffix : String, (tenantId, d.idempotencyKey platform ++ suffix) =
        (principal.tenantId, run.key ++ suffix) ↔
        (tenantId, d.idempotencyKey platform) = (principal.tenantId, run.key) := by
      intro suffix
      simp [Prod.ext_iff]
    have hids : (tenantId, d.effectId platform .reminderCreated) =
        (principal.tenantId, run.ids.reminderCreatedEventId) ↔
        (tenantId, d.idempotencyKey platform) = (principal.tenantId, run.key) := by
      simp only [Prod.mk.injEq, and_congr_right_iff]
      intro _
      exact ⟨fun hi => by rw [hid hi]; rfl, fun hk => by rw [hkey hk]; rfl⟩
    refine ⟨?_, ?_, ?_, ?_⟩
    · rw [hc.calendar, Dict.get?_set, hc.states, ← he]
      split_ifs with hk <;> simp_all
    · rw [hc.scheduler, Dict.get?_set, hc.states, ← hr]
      split_ifs with hk <;> simp_all
    · rw [hc.eventStore, Dict.get?_set, hc.states, ← hcr]
      split_ifs with hk <;> simp_all
    · rw [hc.outbox, Dict.get?_set, hc.states, ← hm]
      split_ifs with hk <;> simp_all

/-- Completed states stay completed, with the same effects. -/
def Persist (D : Set ReminderIdempotencyIdentity) (s s' : ReminderStores platform) : Prop :=
  ∀ tenantId, ∀ d ∈ D, s.states.IsCompleted (tenantId, d.idempotencyKey platform) →
    s'.states.IsCompleted (tenantId, d.idempotencyKey platform) ∧
      s'.effects tenantId (d.idempotencyKey platform) =
        s.effects tenantId (d.idempotencyKey platform)

theorem Persist.refl (s : ReminderStores platform) : Persist D s s := fun _ _ _ hc => ⟨hc, rfl⟩

theorem Persist.trans {t : ReminderStores platform} (h : Persist D s s') (g : Persist D s' t) :
    Persist D s t := by
  intro tenantId d hd hc
  obtain ⟨hc', he'⟩ := h tenantId d hd hc
  obtain ⟨hc'', he''⟩ := g tenantId d hd hc'
  exact ⟨hc'', he''.trans he'⟩

theorem Persist.setStates {states : InMemoryWorkflowStateStore}
    (same : ∀ k, states.IsCompleted k ↔ s.states.IsCompleted k) :
    Persist D s { s with states := states } :=
  fun _ _ _ hc => ⟨(same _).mpr hc, rfl⟩

theorem Persist.create {extraction : ReminderExtraction platform} {event : CalendarEventResult}
    {reminder : ScheduledReminder} {created : CloudEvent platform} {message : OutboxMessage platform}
    (free : CollisionFree platform D) (h : s.EffectInv D) (proper : run.Proper D)
    (hc : run.Created principal extraction s s' event reminder created message)
    (unfinished : ¬ s.states.IsCompleted (principal.tenantId, run.key)) : Persist D s s' := by
  intro tenantId d hd hcomp
  have hne : (tenantId, d.idempotencyKey platform) ≠ (principal.tenantId, run.key) :=
    fun he => unfinished (he ▸ hcomp)
  have hid : (tenantId, d.effectId platform .reminderCreated) ≠
      (principal.tenantId, run.ids.reminderCreatedEventId) := by
    intro he
    obtain ⟨ht, hi⟩ := Prod.mk.inj he
    exact hne (by rw [ht, eq_of_effectId free hd proper.identity hi]; rfl)
  have hkeys : ∀ suffix : String, (tenantId, d.idempotencyKey platform ++ suffix) ≠
      (principal.tenantId, run.key ++ suffix) := by
    intro suffix he
    exact hne (by simpa [Prod.ext_iff] using he)
  refine ⟨(hc.states _).mpr (.inr hcomp), ?_⟩
  rw [effects_eq free h.owned hd, effects_eq free (h.create free proper hc).owned hd, hc.calendar,
    hc.scheduler, hc.eventStore, hc.outbox, Dict.get?_set_of_ne _ _ (hkeys _),
    Dict.get?_set_of_ne _ _ (hkeys _), Dict.get?_set_of_ne _ _ hid, Dict.get?_set_of_ne _ _ (hkeys _)]

end ReminderStores

namespace WorkflowCall

open ReminderStores InMemoryWorkflowStateStore

/-- What `run` guarantees about the arguments of its calls. -/
def Admissible (D : Set ReminderIdempotencyIdentity) : WorkflowCall platform → Prop
  | registerOrReplay _ state => state.status = .running
  | upsert _ state => state.status = .waitingApproval
  | transact _ run => run.Proper D
  | _ => True

variable {s s' : ReminderStores platform} {D : Set ReminderIdempotencyIdentity}

theorem transact_spec {run : ApprovedRun platform} {env : Surroundings} {principal : Principal}
    {r : Except PyError BlockResult} (free : CollisionFree platform D) (proper : run.Proper D)
    (inv : s.EffectInv D) (h : run.Outcome env principal s r s') :
    s'.EffectInv D ∧ Persist D s s' := by
  cases h with
  | aborted e => exact ⟨inv, .refl s⟩
  | replayed register reply =>
    obtain ⟨hkeyed, hcomp, -⟩ := inv.owned.states.register (by simp [proper.status]) register
    exact ⟨inv.setStates hkeyed hcomp, .setStates hcomp⟩
  | @clarified registration stored states states' result register fresh undated upsert =>
    obtain ⟨hkeyed, hcomp, hkey, hnot⟩ :=
      ApprovedRun.unfinished_of_register proper inv.owned.states register fresh
    obtain ⟨hkeyed', ⟨e, he, -⟩ | ⟨-, hcomp'⟩⟩ := hkeyed.upsert upsert
    · cases he
    have hsame : ∀ k, states'.IsCompleted k ↔ s.states.IsCompleted k := by
      intro k
      have hkey' : (registration.state.transition .waitingApproval
          (some ReminderWorkflowStep.needsClarification)
          (ReminderWorkflow.clarificationData run.clarificationReason)
          env.transitionedAt).idempotencyKey = run.key := hkey
      rw [hcomp' k, hkey']
      split_ifs with hk
      · rw [hk]; simp [hnot, WorkflowState.transition]
      · exact hcomp k
    exact ⟨inv.setStates hkeyed' hsame, .setStates hsame⟩
  | created register fresh dated request_eq createEvent schedule created_eq append requested_eq add
      upsert =>
    obtain ⟨-, -, -, hnot⟩ := ApprovedRun.unfinished_of_register proper inv.owned.states register fresh
    have ho : run.Outcome env principal s _ _ := .created register fresh dated request_eq createEvent
      schedule created_eq append requested_eq add upsert
    obtain ⟨extraction, created, message, -, hc⟩ := ho.created_spec proper inv
    exact ⟨inv.create free proper hc, .create free inv proper hc hnot⟩

/-- One call of a run keeps the invariant and every completed effect. -/
theorem effect_spec {c : WorkflowCall platform} {r : c.Resp} (free : CollisionFree platform D)
    (ok : c.Admissible D) (inv : s.EffectInv D) (h : c.Effect s r s') :
    s'.EffectInv D ∧ Persist D s s' := by
  cases c with
  | writeTrace => cases h; exact ⟨inv, .refl s⟩
  | utcnow => cases h; exact ⟨inv, .refl s⟩
  | uuid4 => cases h; exact ⟨inv, .refl s⟩
  | complete => cases h; exact ⟨inv, .refl s⟩
  | registerOrReplay principal state =>
    obtain ⟨-, rfl⟩ | ⟨now, h⟩ := h
    · exact ⟨inv, .refl s'⟩
    obtain ⟨states, hrun, rfl⟩ := Op.zoom_cases h
    have hs : state.status = .running := ok
    obtain ⟨hkeyed, hcomp, -⟩ := inv.owned.states.register (by simp [hs]) hrun
    exact ⟨inv.setStates hkeyed hcomp, .setStates hcomp⟩
  | getByIdempotencyKey principal key =>
    obtain ⟨-, rfl⟩ | h := h
    · exact ⟨inv, .refl s'⟩
    obtain ⟨states, hrun, rfl⟩ := Op.zoom_cases h
    rcases Op.ofExcept_bind_cases hrun with ⟨e, -, ho⟩ | ⟨_, -, ho⟩
    · cases ho; exact ⟨inv, .refl s⟩
    · cases ho; exact ⟨inv, .refl s⟩
  | upsert principal state =>
    obtain ⟨-, rfl⟩ | h := h
    · exact ⟨inv, .refl s'⟩
    obtain ⟨states, hrun, rfl⟩ := Op.zoom_cases h
    have hs : state.status = .waitingApproval := ok
    obtain ⟨hkeyed, ⟨e, -, rfl⟩ | ⟨hterm, hcomp⟩⟩ := inv.owned.states.upsert hrun
    · exact ⟨inv, .refl s⟩
    have hsame : ∀ k, states.IsCompleted k ↔ s.states.IsCompleted k := by
      intro k
      rw [hcomp k]
      split_ifs with hk
      · subst hk
        simp only [hs, reduceCtorEq, false_iff] at hterm ⊢
        exact hterm
      · rfl
    exact ⟨inv.setStates hkeyed hsame, .setStates hsame⟩
  | transact principal run =>
    obtain ⟨env, h⟩ := h
    exact transact_spec free ok inv (ApprovedRun.outcome_of_begin h)

end WorkflowCall

/-! ## Every call of a run -/

namespace ReminderWorkflow

open WorkflowCall Program

variable {w : ReminderWorkflow platform} {D : Set ReminderIdempotencyIdentity}
  {principal : Principal} {request : ReminderWorkflowInput} {i : ReminderIdempotency}

theorem all_writeTrace (type : TraceEventType) (tenantId runId : String) :
    (writeTrace type tenantId runId : WorkflowProgram platform String).All (Admissible D) :=
  .bind (.perform trivial) fun _ => .ofExcept _

theorem all_utcnow : (utcnow : WorkflowProgram platform Instant).All (Admissible D) := .perform trivial

theorem all_uuid4 : (uuid4 : WorkflowProgram platform Uuid).All (Admissible D) := .perform trivial

theorem all_upsert {state : WorkflowState} (h : state.status = .waitingApproval) :
    (upsert principal state : WorkflowProgram platform WorkflowState).All (Admissible D) :=
  .bind (.perform h) fun _ => .ofExcept _

theorem all_guardedReply (runId text : String) :
    (w.guardedReply principal runId text).All (Admissible D) := by
  refine .bind (.ofExcept _) fun _ => .bind (all_writeTrace _ _ _) fun _ => ?_
  exact .bind (.ofExcept _) fun _ => trivial

theorem all_registrationResult (traceIds : List String) (registration : WorkflowStateRegistration) :
    (w.registrationResult principal i traceIds registration).All (Admissible D) := by
  refine .bind (.ofExcept _) fun replay => ?_
  cases replay with
  | none => trivial
  | some replay =>
    exact .bind (all_guardedReply _ _) fun _ => .bind (.ofExcept _) fun _ => trivial

theorem all_resolveExtraction (runId : String) :
    (w.resolveExtraction principal request runId).All (Admissible D) := by
  refine .bind (.ofExcept _) fun result => ?_
  cases result with
  | parsed => trivial
  | needsClarification => trivial
  | unsupported reason =>
    simp only
    split_ifs
    · refine .bind (.bind (.perform trivial) fun _ => ?_) fun _ => trivial
      exact .bind (all_writeTrace _ _ _) fun _ => trivial
    · trivial

theorem all_proceed (state : WorkflowState) (traceIds : List String) :
    (w.proceed principal request i state traceIds).All (Admissible D) := by
  refine .bind (all_resolveExtraction _) fun resolution => ?_
  obtain ⟨extraction, clarification, llmTraceId⟩ := resolution
  cases extraction with
  | none =>
    refine .bind (.ofExcept _) fun _ => .bind (all_guardedReply _ _) fun _ => ?_
    exact .bind all_utcnow fun _ => .bind (all_upsert rfl) fun _ => .ofExcept _
  | some extraction =>
    refine .bind (all_writeTrace _ _ _) fun _ => .bind (.ofExcept _) fun _ => ?_
    refine .bind all_utcnow fun _ => .bind (all_upsert rfl) fun _ => ?_
    exact .bind (.ofExcept _) fun _ => .bind (all_guardedReply _ _) fun _ => .ofExcept _

theorem all_approvedExtraction (existing : Option WorkflowState) :
    (w.approvedExtraction principal request i existing).All (Admissible D) := by
  cases existing with
  | none => exact all_resolveExtraction _
  | some state =>
    unfold approvedExtraction
    simp only
    split_ifs
    · exact .bind (.ofExcept _) fun _ => .bind (.ofExcept _) fun _ => trivial
    · trivial

theorem all_runApproved {state : WorkflowState} (traceIds : List String) (hi : i.identity ∈ D)
    (hkey : state.idempotencyKey = i.key platform) (hstatus : state.status = .running) :
    (w.runApproved principal request i state traceIds).All (Admissible D) := by
  refine .bind (.bind (.perform trivial) fun _ => .ofExcept _) fun existing => ?_
  refine .bind (.ofExcept _) fun _ => .bind (all_approvedExtraction _) fun resolution => ?_
  refine .bind (.bind (.perform ⟨hi, hkey, hstatus⟩) fun _ => .ofExcept _) fun result => ?_
  cases result with
  | returned => trivial
  | created event reminder notice =>
    cases resolution.extraction with
    | none => trivial
    | some extraction =>
      refine .bind (all_writeTrace _ _ _) fun _ => .bind (all_writeTrace _ _ _) fun _ => ?_
      exact .bind (.ofExcept _) fun _ => .bind (all_guardedReply _ _) fun _ => .ofExcept _

theorem all_runBeforeApproval {state : WorkflowState} (traceIds : List String)
    (hstatus : state.status = .running) :
    (w.runBeforeApproval principal request i state traceIds).All (Admissible D) := by
  refine .bind (.bind (.perform hstatus) fun _ => .ofExcept _) fun registration => ?_
  refine .bind (all_registrationResult _ _) fun replay => ?_
  cases replay with
  | some => trivial
  | none => exact all_proceed _ _

theorem all_checkApproval : (checkApproval principal request i).All (@Admissible platform D) := by
  unfold checkApproval
  cases request.approval with
  | none => trivial
  | some grant =>
    refine All.bind all_utcnow ?_
    intro now
    generalize requireApproval principal .P3 _ _ _ now = checked
    exact .ofExcept checked

/-- Every call of a run has the arguments the invariant needs. -/
theorem all_run (hD : ∀ i, reminderIdempotency platform principal request = .ok i → i.identity ∈ D) :
    (w.run principal request).All (Admissible D) := by
  unfold run
  cases hi : reminderIdempotency platform principal request with
  | error e => trivial
  | ok i =>
    rw [ofExcept_ok_bind]
    refine .bind (.ofExcept _) fun _ => .bind (all_writeTrace _ _ _) fun _ => ?_
    refine .bind (.ofExcept _) fun _ => .bind (.ofExcept _) fun _ => ?_
    refine .bind all_checkApproval fun _ => ?_
    refine .bind (all_writeTrace _ _ _) fun _ => .bind (all_writeTrace _ _ _) fun _ => ?_
    refine .bind all_uuid4 fun _ => .bind all_utcnow fun _ => .bind all_utcnow fun _ => ?_
    cases request.approval with
    | none => exact all_runBeforeApproval _ rfl
    | some grant => exact all_runApproved _ (hD i hi) rfl rfl

end ReminderWorkflow

/-! ## Any runs in any order -/

/-- One call of `ReminderWorkflow.run`. -/
structure ReminderRun (platform : Platform) where
  workflow : ReminderWorkflow platform
  principal : Principal
  request : ReminderWorkflowInput

namespace ReminderRun

variable {ι : Type} {D : Set ReminderIdempotencyIdentity}

/-- The runs before their first call, over empty stores. -/
def pool (runs : ι → ReminderRun platform) :
    Pool (workflowCalls platform) (ReminderStores platform) ι PyError ReminderWorkflowResult where
  state := .empty
  threads i := (runs i).workflow.run (runs i).principal (runs i).request

/-- Whoever issues a call, it does the same to the stores. -/
def semantics (platform : Platform) (ι : Type) :
    Semantics (workflowCalls platform) (ReminderStores platform) ι := fun _ c s r s' => c.Effect s r s'

theorem effectInv_empty : (.empty : ReminderStores platform).EffectInv D := by
  refine ⟨⟨?_, ?_, ?_, ?_, ?_⟩, fun tenantId d _ => ⟨?_, ?_, ?_, ?_⟩⟩
  · intro k e h; cases h
  · intro k e h; cases h
  · intro k e h; cases h
  · intro k e h; cases h
  · intro k e h; cases h
  all_goals simp [ReminderStores.empty, LocalCalendarTool.empty, ReminderScheduler.empty,
    InMemoryEventStore.empty, InMemoryOutbox.empty, InMemoryWorkflowStateStore.empty,
    InMemoryWorkflowStateStore.IsCompleted]

variable [DecidableEq ι] {runs : ι → ReminderRun platform}

theorem inv_of_reaches (free : CollisionFree platform D)
    (requests : ∀ i r, reminderIdempotency platform (runs i).principal (runs i).request = .ok r →
      r.identity ∈ D)
    {p : Pool (workflowCalls platform) (ReminderStores platform) ι PyError ReminderWorkflowResult}
    (run : Pool.Reaches (semantics platform ι) (pool runs) p) :
    p.state.EffectInv D ∧ ∀ i, (p.threads i).All (WorkflowCall.Admissible D) := by
  have hstep : ∀ i c s r s', WorkflowCall.Admissible D c → s.EffectInv D →
      semantics platform ι i c s r s' → s'.EffectInv D :=
    fun _ _ _ _ _ ok inv h => (WorkflowCall.effect_spec free ok inv h).1
  exact Pool.inv_of_calls hstep (fun i => ReminderWorkflow.all_run (requests i)) effectInv_empty run

/-- In every interleaving of any runs, failing wherever they may, each identity has all of its effects
or none, all exactly when its state is completed, and completed effects stay as they are. -/
theorem exactly_once (free : CollisionFree platform D)
    (requests : ∀ i r, reminderIdempotency platform (runs i).principal (runs i).request = .ok r →
      r.identity ∈ D)
    {p q : Pool (workflowCalls platform) (ReminderStores platform) ι PyError ReminderWorkflowResult}
    (before : Pool.Reaches (semantics platform ι) (pool runs) p)
    (after : Pool.Reaches (semantics platform ι) p q) :
    (∀ tenantId, ∀ d ∈ D, p.state.ExactlyOnce tenantId d) ∧ p.state.Persist D q.state := by
  obtain ⟨inv, threads⟩ := inv_of_reaches free requests before
  refine ⟨fun tenantId d hd => inv.exactlyOnce free hd, ?_⟩
  have hstep : ∀ i c s r s', WorkflowCall.Admissible D c → s.EffectInv D ∧ p.state.Persist D s →
      semantics platform ι i c s r s' → s'.EffectInv D ∧ p.state.Persist D s' := by
    intro i c s r s' ok ⟨hinv, hpersist⟩ effect
    obtain ⟨hinv', hstep⟩ := WorkflowCall.effect_spec free ok hinv effect
    exact ⟨hinv', hpersist.trans hstep⟩
  have hrun := Pool.inv_of_calls hstep threads ⟨inv, .refl p.state⟩ after
  exact hrun.1.2

/-! ### A sample run -/

def sampleWorkflow : ReminderWorkflow reminderPlatform := .sample false (.parsed .sample)

/-- What the sample message's effects are named after. -/
def sampleKey : String := (ReminderIdempotencyIdentity.sample "event-1").idempotencyKey reminderPlatform

/-- The sample message with the approval its effects need. -/
def sampleRequest : ReminderWorkflowInput :=
  .sample .callHome ⟨0, Nat.zero_le _⟩ (some {
    approvalId := "approval-1", tenantId := "tenant-1", principalId := "user-1"
    action := "calendar.create_event", resource := sampleKey ++ ":calendar"
    tier := .P3, approved := true, expiresAt := none, requestHash := none, trusted := true })

/-- The same approved message, delivered twice. -/
def sampleRuns (_ : Bool) : ReminderRun reminderPlatform := ⟨sampleWorkflow, .sample, sampleRequest⟩

def sampleOutcome : Except PyError ReminderWorkflowResult × ReminderStores reminderPlatform :=
  (sampleWorkflow.run .sample sampleRequest).exec (WorkflowCall.serve .zero) .empty

theorem isFull_sampleOutcome :
    sampleOutcome.1.isOk = true ∧ (sampleOutcome.2.effects "tenant-1" sampleKey).isFull = true := by
  decide +kernel

theorem sampleRuns_identity {r : ReminderIdempotency}
    (h : reminderIdempotency reminderPlatform .sample sampleRequest = .ok r) : r.identity = .sample "event-1" := by
  have hidentity : (reminderIdempotency reminderPlatform .sample sampleRequest).toOption.map
      ReminderIdempotency.identity = some (.sample "event-1") := by decide +kernel
  rw [h] at hidentity
  exact Option.some.inj hidentity

/-- Run alone, the first of the two runs stores its effects. -/
theorem reaches_stored : ∃ p r, Pool.Reaches (semantics reminderPlatform Bool) (pool sampleRuns) p ∧
    p.threads true = .ret r ∧ (p.state.effects "tenant-1" sampleKey).isFull = true := by
  have hserves : ∀ (c : (workflowCalls reminderPlatform).Call) s, semantics reminderPlatform Bool true c s
      (WorkflowCall.serve .zero c s).1 (WorkflowCall.serve .zero c s).2 := WorkflowCall.effect_serve .zero
  have hrun := Pool.reaches_of_exec hserves .empty fun _ => sampleWorkflow.run .sample sampleRequest
  have hstored := isFull_sampleOutcome
  unfold sampleOutcome at hstored
  -- what the run leaves is not computed again
  generalize (sampleWorkflow.run .sample sampleRequest).exec (WorkflowCall.serve .zero) .empty = o
    at hrun hstored
  obtain ⟨result, stores⟩ := o
  cases result with
  | error e => cases hstored.1
  | ok r => exact ⟨_, r, hrun, by simp [Program.ofExcept], hstored.2⟩

/-- The first delivery creates every effect once; whatever the second does later, they stay as they are. -/
theorem exactly_once_sample : ∃ p r, Pool.Reaches (semantics reminderPlatform Bool) (pool sampleRuns) p ∧
    p.threads true = .ret r ∧
    (p.state.effects "tenant-1" sampleKey).Complete
      (.fromIdentity reminderPlatform (.sample "event-1")) ∧
    ∀ q, Pool.Reaches (semantics reminderPlatform Bool) p q →
      q.state.effects "tenant-1" sampleKey = p.state.effects "tenant-1" sampleKey := by
  have hrequests : ∀ i r, reminderIdempotency reminderPlatform (sampleRuns i).principal
      (sampleRuns i).request = .ok r → r.identity ∈
      ({.sample "event-1", .sample "event-2"} : Set ReminderIdempotencyIdentity) :=
    fun i r h => .inl (sampleRuns_identity h)
  obtain ⟨p, r, hrun, hret, hstored⟩ := reaches_stored
  have honce := (exactly_once collisionFree_sample hrequests hrun .refl).1 "tenant-1" _ (.inl rfl)
  obtain ⟨hempty, -⟩ | ⟨hcomplete, hstate⟩ := honce
  · change p.state.effects "tenant-1" sampleKey = .empty at hempty
    simp [hempty, ReminderEffects.isFull, ReminderEffects.empty] at hstored
  · refine ⟨p, r, hrun, hret, hcomplete, fun q hq => ?_⟩
    exact ((exactly_once collisionFree_sample hrequests hrun hq).2 "tenant-1" _ (.inl rfl) hstate).2

end ReminderRun

end PersonalAssistant
