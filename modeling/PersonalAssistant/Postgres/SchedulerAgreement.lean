import Mathlib.Data.List.Find
import PersonalAssistant.Lib.Index
import PersonalAssistant.Lib.Lists
import PersonalAssistant.Postgres.Scheduler

/-!
# Both schedulers implement the same store

The in-memory scheduler and the SQL one, used by one caller at a time. The table is the list of rows of
the stored jobs, in the order of the dictionary; the trigger never changes what the statements wrote.
The stores differ where `mark_sent` meets a job that kept an error, and where the lead time of a reminder
crosses a change of the zone's offset.
-/
namespace PersonalAssistant

open Lib InMemoryOutbox

variable {platform : Platform}

/-! ## Related states -/

/-- The row of a job. -/
def ReminderRow.ofJob (job : ScheduledReminder) : ReminderRow where
  tenantId := job.tenantId
  idempotencyKey := job.idempotencyKey
  reminderId := job.reminderId
  calendarEventId := job.calendarEventId
  notifyAt := job.notifyAt
  channel := job.channel
  recipient := job.recipient
  sent := job.sent
  deliveryStatus := job.deliveryStatus
  attempts := job.attempts
  nextAttemptAt := job.nextAttemptAt
  sendingAt := job.sendingAt
  publishedAt := job.publishedAt
  lastErrorCategory := job.lastError.map DeliveryError.category
  lastErrorCode := job.lastError.map DeliveryError.code
  lastErrorProviderCode := job.lastError.bind DeliveryError.providerCode
  lastErrorAt := job.lastError.map DeliveryError.occurredAt
  payload := job

/-- `sent` is the legacy copy of the status. -/
def ScheduledReminder.Flagged (job : ScheduledReminder) : Prop :=
  job.sent = decide (job.deliveryStatus ≠ .pending)

theorem ScheduledReminder.Flagged.sent_eq {job : ScheduledReminder} (h : job.Flagged) :
    job.sent = decide (job.deliveryStatus ≠ .pending) := h

/-- A job that a row can hold. -/
structure ScheduledReminder.Tabular (platform : Platform) (job : ScheduledReminder) : Prop where
  valid : job.Valid platform
  flagged : job.Flagged
  counted : job.attempts ≤ maxInteger

/-- The table holds the rows of the stored jobs, which stand under their own keys. -/
structure SchedulerAgrees (platform : Platform) (s : ReminderScheduler) (t : ReminderTable) : Prop where
  rows : t = s.jobsByKey.values.map ReminderRow.ofJob
  own : ∀ k job, s.jobsByKey.get? k = some job → job.tenantId = k.1 ∧ job.idempotencyKey = k.2
  index : Indexes s.keyByReminderId s.jobsByKey ScheduledReminder.reminderId
  tabular : ∀ k job, s.jobsByKey.get? k = some job → job.Tabular platform

variable {s s' : ReminderScheduler} {t : ReminderTable} {principal : Principal}
  {job : ScheduledReminder} {reminderId : String}

/-! ## Rows of jobs -/

/-- A valid job is no legacy job. -/
theorem ScheduledReminder.Valid.upgradeLegacy (h : job.Valid platform) :
    job.upgradeLegacy platform = job := by
  have htimezone : job.timezone ≠ "" := by
    intro he
    have := h.timezone
    simp [requireIanaTimezone, he] at this
  have hsource : job.sourceEventId ≠ "" := by
    intro he
    have := h.sourceEventId
    simp [requireNonempty, he] at this
  have hfingerprint : job.payloadFingerprint ≠ "" := by
    intro he
    have hhex := h.payloadFingerprint
    rw [he] at hhex
    exact absurd hhex (by decide)
  simp [ScheduledReminder.upgradeLegacy, htimezone, hsource, hfingerprint]

/-- The payload of a row is read back as its job. -/
theorem readPayload_ofJob (h : job.Tabular platform) :
    PostgresReminderScheduler.readPayload platform (.ofJob job) = .ok job := by
  have hread : PostgresReminderScheduler.readPayload platform (.ofJob job) =
      (job.upgradeLegacy platform).modelValidate platform := rfl
  rw [hread, h.valid.upgradeLegacy, h.valid.modelValidate, ← h.flagged]

/-- The trigger leaves the row of a flagged job alone, when status and flag change together. -/
theorem syncLegacySent_ofJob (old : Option ScheduledReminder) (now : Instant) (hf : job.Flagged)
    (hold : ∀ j ∈ old, j.Flagged) :
    ReminderRow.syncLegacySent (old.map .ofJob) (.ofJob job) now = .ofJob job := by
  have hcolumns : ReminderRow.syncColumns (old.map .ofJob) (.ofJob job) now = .ofJob job := by
    have hflag : { ReminderRow.ofJob job with
        sent := decide ((ReminderRow.ofJob job).deliveryStatus ≠ .pending) } = ReminderRow.ofJob job := by
      simp only [ReminderRow.ofJob, hf.sent_eq]
    cases old with
    | none =>
      simp only [Option.map_none, ReminderRow.syncColumns]
      by_cases hp : job.deliveryStatus = .pending
      · have hsent : job.sent = false := by simp [hf.sent_eq, hp]
        simp [ReminderRow.ofJob, hp, hsent]
      · have hsent : job.sent = true := by simp [hf.sent_eq, hp]
        simp [ReminderRow.ofJob, hp, hsent]
    | some j =>
      simp only [Option.map_some, ReminderRow.syncColumns]
      have hj := hold j rfl
      split_ifs with hchanged hpublished
      · exact hflag
      · -- status unchanged and the flag newly set: the flags say the opposite
        simp only [ReminderRow.ofJob, not_not] at hchanged hpublished
        rw [hf.sent_eq, hj.sent_eq, hchanged] at hpublished
        simp at hpublished
      · exact hflag
  rw [ReminderRow.syncLegacySent, hcolumns]
  rfl

/-- The constraints accept a job that mirrors a valid message. -/
theorem check_mirrored {message : OutboxMessage platform} (h : message.StateMetadata) :
    (ReminderRow.ofJob (job.mirrored message)).check = true := by
  revert h
  unfold OutboxMessage.StateMetadata OutboxMessage.requireStateMetadata
  obtain ⟨_, _, _, _, status, _, _, _, _, attempts, _, sendingAt, publishedAt, error⟩ := message
  simp only [ReminderRow.check, ReminderRow.errorShapeCheck, ReminderRow.legacySentCheck,
    ReminderRow.stateMetadataCheck, ReminderRow.ofJob, ScheduledReminder.mirrored]
  cases status <;> cases error <;> simp [Option.isSome_iff_ne_none] <;> grind

/-! ## Lookups -/

theorem SchedulerAgrees.mem_own (h : SchedulerAgrees platform s t) {e : Key × ScheduledReminder}
    (he : e ∈ s.jobsByKey.entries) : e.2.tenantId = e.1.1 ∧ e.2.idempotencyKey = e.1.2 :=
  h.own e.1 e.2 (Dict.mem_entries.mp he)

/-- Both stores look up the same reminder. -/
theorem SchedulerAgrees.find?_reminder (h : SchedulerAgrees platform s t) :
    t.find? (PostgresReminderScheduler.isReminder principal reminderId) =
      (s.find? principal reminderId).map fun e => .ofJob e.2 := by
  rw [h.rows, Dict.values, List.map_map, List.find?_map, ReminderScheduler.find?]
  congr 1
  refine List.find?_congr fun e he => ?_
  simp [PostgresReminderScheduler.isReminder, ReminderRow.ofJob, (h.mem_own he).1]

/-- Both stores look up the same key. -/
theorem SchedulerAgrees.find?_key (h : SchedulerAgrees platform s t) {key : String} :
    (t.find? fun r => r.tenantId = principal.tenantId && r.idempotencyKey = key) =
      (s.jobsByKey.get? (principal.tenantId, key)).map .ofJob := by
  have hiff : ∀ e ∈ s.jobsByKey.entries,
      ((decide (e.2.tenantId = principal.tenantId) && decide (e.2.idempotencyKey = key)) = true ↔
        e.1 = (principal.tenantId, key)) := by
    intro e he
    simp [h.mem_own he, Prod.ext_iff]
  have hfilter := Dict.filter_entries (p := fun e : Key × ScheduledReminder =>
    decide (e.2.tenantId = principal.tenantId) && decide (e.2.idempotencyKey = key)) hiff
  have hhead := congrArg List.head? hfilter
  rw [List.head?_map, List.head?_filter] at hhead
  rw [h.rows, Dict.values, List.map_map, List.find?_map]
  cases hk : s.jobsByKey.get? (principal.tenantId, key) with
  | none =>
    rw [hk] at hhead
    simp only [Option.toList_none, List.head?_nil, Option.map_eq_none_iff] at hhead
    exact Option.map_eq_none_iff.mpr hhead
  | some job =>
    rw [hk] at hhead
    obtain ⟨e, he, rfl⟩ := Option.map_eq_some_iff.mp hhead
    exact Option.map_eq_some_iff.mpr ⟨e, he, rfl⟩

/-- A reminder identifier is stored under one key. -/
theorem SchedulerAgrees.any_reminder (h : SchedulerAgrees platform s t) {key : String}
    (hk : s.jobsByKey.get? (principal.tenantId, key) = none) :
    (t.any fun r => r.tenantId = principal.tenantId && r.reminderId = reminderId) =
      takenByOther s.keyByReminderId (principal.tenantId, reminderId) key := by
  have hiff : (∃ r ∈ t, r.tenantId = principal.tenantId ∧ r.reminderId = reminderId) ↔
      ¬ takenByOther s.keyByReminderId (principal.tenantId, reminderId) key = false := by
    rw [takenByOther_eq_false]
    constructor
    · rintro ⟨r, hr, ht, hid⟩ hfree
      rw [h.rows, Dict.values, List.map_map] at hr
      obtain ⟨⟨k, job⟩, he, rfl⟩ := List.mem_map.mp hr
      have hget := Dict.mem_entries.mp he
      have htenant : k.1 = principal.tenantId := (h.mem_own he).1.symm.trans ht
      have hindex := (h.index principal.tenantId reminderId k.2).mpr ⟨job, by rw [← htenant]; exact hget, hid⟩
      have hkey := hfree _ hindex
      rw [← htenant, ← hkey] at hk
      cases hk.symm.trans hget
    · intro hnot
      push Not at hnot
      obtain ⟨other, hother, -⟩ := hnot
      obtain ⟨job, hget, hid⟩ := (h.index _ _ _).mp hother
      refine ⟨.ofJob job, ?_, (h.own _ _ hget).1, hid⟩
      rw [h.rows]
      exact List.mem_map_of_mem (Dict.mem_values.mpr ⟨_, hget⟩)
  rw [Bool.eq_iff_iff]
  simpa using hiff

/-- A new job of a stored key collides with the row of that key. -/
theorem SchedulerAgrees.any_collides_of_key (h : SchedulerAgrees platform s t)
    (job : ScheduledReminder) {stored : ScheduledReminder}
    (hk : s.jobsByKey.get? (job.tenantId, job.idempotencyKey) = some stored) :
    t.any (ReminderRow.ofJob job).collides = true := by
  refine List.any_eq_true.mpr ⟨.ofJob stored, ?_, ?_⟩
  · rw [h.rows]
    exact List.mem_map_of_mem (Dict.mem_values.mpr ⟨_, hk⟩)
  · obtain ⟨ht, hkey⟩ := h.own _ _ hk
    simp only [] at ht hkey
    simp [ReminderRow.collides, ReminderRow.ofJob, ht, hkey]

/-- A new job of a new key collides with a row of its reminder identifier only. -/
theorem SchedulerAgrees.any_collides (h : SchedulerAgrees platform s t) (job : ScheduledReminder)
    (hk : s.jobsByKey.get? (job.tenantId, job.idempotencyKey) = none) :
    t.any (ReminderRow.ofJob job).collides =
      t.any fun r => r.tenantId = job.tenantId && r.reminderId = job.reminderId := by
  have hnew : ∀ r ∈ t, ¬ (job.tenantId = r.tenantId ∧ job.idempotencyKey = r.idempotencyKey) := by
    rintro r hr ⟨ht, hkey⟩
    rw [h.rows] at hr
    obtain ⟨j, hj, rfl⟩ := List.mem_map.mp hr
    obtain ⟨k, hget⟩ := Dict.mem_values.mp hj
    have hown := h.own k j hget
    have hpair : k = (job.tenantId, job.idempotencyKey) :=
      Prod.ext (hown.1.symm.trans ht.symm) (hown.2.symm.trans hkey.symm)
    rw [hpair, hk] at hget
    cases hget
  rw [Bool.eq_iff_iff, List.any_eq_true, List.any_eq_true]
  refine exists_congr fun r => and_congr_right fun hr => ?_
  have := hnew r hr
  simp only [ReminderRow.collides, ReminderRow.ofJob, Bool.and_eq_true, Bool.or_eq_true,
    decide_eq_true_eq]
  grind

/-! ## Writes -/

/-- Append a job of a new key and a new reminder identifier. -/
theorem SchedulerAgrees.append (h : SchedulerAgrees platform s t) {key : String}
    (hk : s.jobsByKey.get? (principal.tenantId, key) = none)
    (hid : takenByOther s.keyByReminderId (principal.tenantId, job.reminderId) key = false)
    (hown : job.tenantId = principal.tenantId ∧ job.idempotencyKey = key)
    (hvalid : job.Tabular platform) :
    SchedulerAgrees platform
      ⟨s.jobsByKey.set (principal.tenantId, key) job,
        s.keyByReminderId.set (principal.tenantId, job.reminderId) key⟩ (t ++ [.ofJob job]) where
  rows := by
    simp [Dict.values, Dict.entries_set_of_get?_eq_none job hk, h.rows]
  own k j hj := by
    rw [Dict.get?_set] at hj
    split_ifs at hj with hkey
    · cases hj
      rw [hkey]
      exact hown
    · exact h.own k j hj
  index := h.index.set (takenByOther_eq_false.mp hid) (by simp [hk])
  tabular k j hj := by
    rw [Dict.get?_set] at hj
    split_ifs at hj
    · cases hj
      exact hvalid
    · exact h.tabular k j hj

/-- Rewrite a stored job and its row. -/
theorem SchedulerAgrees.rewrite (h : SchedulerAgrees platform s t) {k : Key} {job' : ScheduledReminder}
    {found : ReminderRow → Bool} (assign : ReminderRow → ReminderRow)
    (hk : s.jobsByKey.get? k = some job)
    (hfound : ∀ e ∈ s.jobsByKey.entries, found (.ofJob e.2) = true ↔ e.1 = k)
    (hassign : assign (.ofJob job) = .ofJob job')
    (hown : job'.tenantId = job.tenantId ∧ job'.idempotencyKey = job.idempotencyKey)
    (hid : job'.reminderId = job.reminderId) (hvalid : job'.Tabular platform) :
    SchedulerAgrees platform (s.setJob k job') (t.map fun r => if found r then assign r else r) where
  rows := by
    have hmem : k ∈ s.jobsByKey.entries.map Prod.fst :=
      List.mem_map_of_mem (f := Prod.fst) (Dict.get?_eq_some_iff.mp hk)
    rw [h.rows, ReminderScheduler.jobsByKey_setJob, Dict.values, Dict.values,
      Dict.entries_set_of_mem job' hmem]
    simp only [List.map_map]
    refine List.map_congr_left fun e he => ?_
    simp only [Function.comp_apply]
    by_cases hek : e.1 = k
    · have hjob : e.2 = job := by
        have hget := Dict.mem_entries.mp he
        rw [hek, hk] at hget
        exact (Option.some.inj hget).symm
      rw [if_pos ((hfound e he).mpr hek), if_pos hek, hjob, hassign]
    · rw [if_neg fun hf => hek ((hfound e he).mp hf), if_neg hek]
  own j x hj := by
    rw [ReminderScheduler.jobsByKey_setJob, Dict.get?_set] at hj
    split_ifs at hj with hjk
    · cases hj
      rw [hjk, hown.1, hown.2]
      exact h.own k job hk
    · exact h.own j x hj
  index := h.index.rewrite fun j => by
    rw [ReminderScheduler.jobsByKey_setJob, Dict.get?_set]
    split_ifs with hjk
    · simp [hjk, hk, hid]
    · rfl
  tabular j x hj := by
    rw [ReminderScheduler.jobsByKey_setJob, Dict.get?_set] at hj
    split_ifs at hj
    · cases hj
      exact hvalid
    · exact h.tabular j x hj

/-- The rows an update finds by reminder identifier. -/
theorem SchedulerAgrees.found_reminder (h : SchedulerAgrees platform s t) {k : Key}
    (hf : s.find? principal reminderId = some (k, job)) :
    ∀ e ∈ s.jobsByKey.entries,
      PostgresReminderScheduler.isReminder principal reminderId (.ofJob e.2) = true ↔ e.1 = k := by
  obtain ⟨hk, htenant, hid⟩ := ReminderScheduler.find?_eq_some hf
  intro e he
  have hget := Dict.mem_entries.mp he
  simp only [PostgresReminderScheduler.isReminder, ReminderRow.ofJob, Bool.and_eq_true,
    decide_eq_true_eq, (h.mem_own he).1]
  constructor
  · rintro ⟨ht, hid'⟩
    have hpair : e.1 = (k.1, e.1.2) := Prod.ext (ht.trans htenant.symm) rfl
    have hkey : e.1.2 = k.2 := h.index.eq_of_attribute (t := k.1) (hpair ▸ hget) hk (hid'.trans hid.symm)
    exact Prod.ext (ht.trans htenant.symm) hkey
  · rintro rfl
    cases hget.symm.trans hk
    exact ⟨htenant, hid⟩

/-- The rows an update finds by idempotency key. -/
theorem SchedulerAgrees.found_key (h : SchedulerAgrees platform s t) {k : Key}
    (ht : k.1 = principal.tenantId) {key : String} (hkey : key = k.2) :
    ∀ e ∈ s.jobsByKey.entries,
      (decide ((ReminderRow.ofJob e.2).tenantId = principal.tenantId) &&
        decide ((ReminderRow.ofJob e.2).idempotencyKey = key)) = true ↔ e.1 = k := by
  intro e he
  simp [ReminderRow.ofJob, h.mem_own he, hkey, ← ht, Prod.ext_iff]

/-- The update of the row of a job, through trigger and constraints. -/
theorem SchedulerAgrees.updateRow (h : SchedulerAgrees platform s t) {k : Key}
    {job' : ScheduledReminder} (found : ReminderRow → Bool) {assign : ReminderRow → ReminderRow}
    (now : Instant) (hk : s.jobsByKey.get? k = some job)
    (hfound : ∀ e ∈ s.jobsByKey.entries, found (.ofJob e.2) = true ↔ e.1 = k)
    (hassign : assign (.ofJob job) = .ofJob job')
    (hown : job'.tenantId = job.tenantId ∧ job'.idempotencyKey = job.idempotencyKey)
    (hid : job'.reminderId = job.reminderId) (hvalid : job'.Tabular platform)
    (hcheck : (ReminderRow.ofJob job').check = true) :
    ∃ t', PostgresReminderScheduler.updateRow found (.ofJob job) assign now t = (.ok (), t') ∧
      SchedulerAgrees platform (s.setJob k job') t' := by
  have hsync : ReminderRow.syncLegacySent (some (.ofJob job)) (assign (.ofJob job)) now =
      .ofJob job' := by
    rw [hassign]
    exact syncLegacySent_ofJob (some job) now hvalid.flagged fun j hj => by
      cases hj; exact (h.tabular k job hk).flagged
  refine ⟨_, ?_, h.rewrite (fun r => ReminderRow.syncLegacySent (some r) (assign r) now) hk
    hfound hsync hown hid hvalid⟩
  have hbound : (ReminderRow.ofJob job').attempts ≤ maxInteger := hvalid.counted
  unfold PostgresReminderScheduler.updateRow
  simp only [hsync, hcheck, hbound, decide_true, require_true, Op.ofExcept_ok_bind]
  rfl

/-! ## One call -/

/-- What both schedulers do: return related reminders and stay related, or raise with the same code and
change nothing, or raise an exception that is no `AssistantError`, where `refused`. -/
inductive SchedulerMatches (platform : Platform) {α : Type} (R : α → α → Prop) (refused : Prop)
    (s : ReminderScheduler) (t : ReminderTable) :
    Except PyError α × ReminderScheduler → Except PyError α × ReminderTable → Prop where
  | returned {a b : α} {s' : ReminderScheduler} {t' : ReminderTable} :
      R a b → SchedulerAgrees platform s' t' →
      SchedulerMatches platform R refused s t (.ok a, s') (.ok b, t')
  | raised {e e' : PyError} (code : ErrorCode) : e.code? = some code → e'.code? = some code →
      SchedulerMatches platform R refused s t (.error e, s) (.error e', t)
  | refused {e e' : PyError} : refused → e.code? = none → e'.code? = none →
      SchedulerMatches platform R refused s t (.error e, s) (.error e', t)

section Calls

variable {α : Type} {R : α → α → Prop} {refused : Prop} {offsetAt : Instant → Int} {fresh : Uuid}
  {now : Instant} {request : ReminderScheduler.ScheduleRequest}

theorem SchedulerMatches.untrusted {e : PyError} (h : requireTrustedPrincipal principal = .error e) :
    SchedulerMatches platform R refused s t (.error e, s) (.error e, t) := by
  unfold requireTrustedPrincipal at h
  split_ifs at h
  cases h
  exact .raised .authenticationRequired rfl rfl

/-- The zone of `starts_at` has the same offset at the earlier reading, and that reading is in range
when `starts_at` is in range in UTC. -/
def SteadyZone (request : ReminderScheduler.ScheduleRequest) (offsetAt : Instant → Int) : Prop :=
  ∀ offset, request.startsAt.offset = some offset →
    ((∃ wall, request.startsAt.wall.addSeconds (-(request.minutesBefore * 60)) = .ok wall) ↔
      ∃ startsAt, request.startsAt.canonicalUtc "starts_at" = .ok startsAt) ∧
    ∀ wall, request.startsAt.wall.addSeconds (-(request.minutesBefore * 60)) = .ok wall →
      offsetAt wall = offset

/-- In a steady zone wall clock and UTC arithmetic agree. -/
theorem notifyAtOf_eq (h : SteadyZone request offsetAt) :
    PostgresReminderScheduler.notifyAtOf request offsetAt = ReminderScheduler.notifyAtOf request := by
  unfold PostgresReminderScheduler.notifyAtOf ReminderScheduler.notifyAtOf
  cases hoffset : request.startsAt.offset with
  | none => simp [DateTime.canonicalUtc, hoffset]
  | some offset =>
    obtain ⟨hrange, hzone⟩ := h offset hoffset
    cases hwall : request.startsAt.wall.addSeconds (-(request.minutesBefore * 60)) with
    | error e =>
      -- out of range on the wall clock and in UTC
      cases hstarts : request.startsAt.canonicalUtc "starts_at" with
      | ok startsAt =>
        obtain ⟨wall, hw⟩ := hrange.mpr ⟨startsAt, hstarts⟩
        cases hwall.symm.trans hw
      | error e' =>
        rw [DateTime.canonicalUtc, hoffset] at hstarts
        rw [Instant.ofMicros_error hwall, Instant.ofMicros_error hstarts]
        rfl
    | ok wall =>
      obtain ⟨startsAt, hstarts⟩ := hrange.mp ⟨wall, hwall⟩
      simp only [hstarts, except_ok_bind, hzone wall hwall]
      have hstarts' := hstarts
      rw [DateTime.canonicalUtc, hoffset] at hstarts'
      have h₁ := Instant.micros_of_ofMicros hstarts'
      have h₂ := Instant.micros_of_ofMicros hwall
      simp only [DateTime.canonicalUtc, DateTime.utcMicros, Instant.addSeconds] at h₁ ⊢
      congr 1
      omega

/-- The arguments make no job: a naive or unrepresentable time, or a field the model rejects. -/
def Malformed (platform : Platform) (principal : Principal)
    (request : ReminderScheduler.ScheduleRequest) (fresh : Uuid) : Prop :=
  principal.trusted = true ∧ ∀ job, (do
    let notifyAt ← ReminderScheduler.notifyAtOf request
    (ReminderScheduler.newJob principal request notifyAt fresh).modelValidate platform) ≠ .ok job

theorem requireIanaTimezone_code {value : String} {e : PyError}
    (h : requireIanaTimezone platform value = .error e) : e.code? = none := by
  unfold requireIanaTimezone at h
  split_ifs at h <;> cases h <;> rfl

theorem modelValidate_code {e : PyError} (h : job.modelValidate platform = .error e) :
    e.code? = none := by
  unfold ScheduledReminder.modelValidate at h
  cases h₁ : requireIanaTimezone platform job.timezone with
  | error e₁ =>
    rw [h₁] at h
    cases h
    exact requireIanaTimezone_code h₁
  | ok _ =>
    rw [h₁] at h
    unfold requireNonempty requireFingerprint at h
    split_ifs at h <;> cases h <;> rfl

theorem notifyAtOf_code {e : PyError} (h : ReminderScheduler.notifyAtOf request = .error e) :
    e.code? = none := by
  have hmicros : ∀ n e, Instant.ofMicros n = .error e → e.code? = none := by
    intro n e h
    rw [Instant.ofMicros_error h]
    rfl
  unfold ReminderScheduler.notifyAtOf at h
  cases hs : request.startsAt.canonicalUtc "starts_at" with
  | error e' =>
    rw [hs] at h
    cases h
    unfold DateTime.canonicalUtc at hs
    cases hoffset : request.startsAt.offset with
    | none =>
      rw [hoffset] at hs
      cases hs
      rfl
    | some offset =>
      rw [hoffset] at hs
      exact hmicros _ _ hs
  | ok startsAt =>
    rw [hs] at h
    exact hmicros _ _ h

/-- A new job, its row behind the trigger, and what the constraints say of it. -/
theorem inserted_newJob {notifyAt : Instant} (now : Instant)
    (hjob : (ReminderScheduler.newJob principal request notifyAt fresh).modelValidate platform = .ok job) :
    job.Tabular platform ∧
      ReminderRow.syncLegacySent none (.inserted job) now = .ofJob job ∧
      (ReminderRow.ofJob job).check = true := by
  obtain ⟨hv, rfl⟩ := ScheduledReminder.modelValidate_eq_ok hjob
  have hflagged : ScheduledReminder.Flagged
      { ReminderScheduler.newJob principal request notifyAt fresh with
        sent := decide ((ReminderScheduler.newJob principal request notifyAt fresh).deliveryStatus ≠
          .pending) } := rfl
  have hsync := syncLegacySent_ofJob none now hflagged (by simp)
  exact ⟨⟨⟨hv.timezone, hv.sourceEventId, hv.payloadFingerprint⟩, hflagged, Nat.zero_le _⟩, hsync, rfl⟩

theorem SchedulerAgrees.scheduleBeforeEvent (h : SchedulerAgrees platform s t)
    (hz : SteadyZone request offsetAt)
    (hs : ∀ notifyAt, PostgresOutbox.bindTexts
      (ReminderScheduler.newJob principal request notifyAt fresh).texts = .ok ()) :
    SchedulerMatches platform Eq (Malformed platform principal request fresh) s t
      (ReminderScheduler.scheduleBeforeEvent platform principal request fresh s)
      (PostgresReminderScheduler.scheduleBeforeEvent platform principal request offsetAt fresh now t) := by
  unfold ReminderScheduler.scheduleBeforeEvent PostgresReminderScheduler.scheduleBeforeEvent
  rw [notifyAtOf_eq hz]
  cases htr : requireTrustedPrincipal principal with
  | error e => exact .untrusted htr
  | ok _ =>
  have htr := requireTrustedPrincipal_eq_ok.mp htr
  cases hn : ReminderScheduler.notifyAtOf request with
  | error e => exact .refused ⟨htr, by simp [hn]⟩ (notifyAtOf_code hn) (notifyAtOf_code hn)
  | ok notifyAt =>
  simp only [Op.ofExcept_ok_bind]
  cases hjob : (ReminderScheduler.newJob principal request notifyAt fresh).modelValidate platform with
  | error e => exact .refused ⟨htr, by simp [hn, hjob]⟩ (modelValidate_code hjob) (modelValidate_code hjob)
  | ok job =>
  obtain ⟨htabular, hsync, hcheck⟩ := inserted_newJob now hjob
  obtain ⟨-, hfields⟩ := ScheduledReminder.modelValidate_eq_ok hjob
  have hown : job.tenantId = principal.tenantId ∧ job.idempotencyKey = request.idempotencyKey := by
    rw [hfields]
    exact ⟨rfl, rfl⟩
  have hbind : PostgresOutbox.bindTexts job.texts = .ok () := by
    rw [hfields]
    exact hs notifyAt
  simp only [Op.ofExcept_ok_bind, Op.get_bind, hbind, hsync, hcheck, require_true, h.find?_key]
  cases hk : s.jobsByKey.get? (principal.tenantId, request.idempotencyKey) with
  | some existing =>
    have hcollides := h.any_collides_of_key job (by rw [hown.1, hown.2]; exact hk)
    simp only [hcollides, Option.map_some, readPayload_ofJob (h.tabular _ existing hk), Op.ofExcept_ok_bind, Bool.not_true,
      Bool.false_eq_true, if_false]
    cases hsame : ReminderScheduler.sameRequest existing job with
    | false => exact .raised .conflict rfl rfl
    | true => exact .returned rfl h
  | none =>
    have hcollides := h.any_collides job (by rw [hown.1, hown.2]; exact hk)
    rw [hown.1, h.any_reminder hk] at hcollides
    simp only [hcollides, h.any_reminder hk, Option.map_none]
    cases hid : takenByOther s.keyByReminderId (principal.tenantId, job.reminderId)
        request.idempotencyKey with
    | true => exact .raised .conflict rfl rfl
    | false =>
      simp only [Bool.not_false, if_true, readPayload_ofJob htabular, Op.ofExcept_ok_bind]
      exact .returned rfl (h.append hk hid hown htabular)

/-- A reminder that is stored nowhere. -/
theorem SchedulerMatches.notFound :
    SchedulerMatches platform R refused s t
      (.error (ReminderScheduler.reminderNotFound principal), s)
      (.error (ReminderScheduler.reminderNotFound principal), t) := .raised .notFound rfl rfl

theorem SchedulerAgrees.mirrorDelivery (h : SchedulerAgrees platform s t)
    {message : OutboxMessage platform} (hm : message.StateMetadata) (ha : message.attempts ≤ maxInteger)
    (hs : PostgresOutbox.bindTexts [principal.tenantId, reminderId] = .ok ()) :
    SchedulerMatches platform Eq False s t
      (ReminderScheduler.mirrorDelivery principal reminderId message s)
      (PostgresReminderScheduler.mirrorDelivery principal reminderId message now t) := by
  unfold ReminderScheduler.mirrorDelivery PostgresReminderScheduler.mirrorDelivery
  cases htr : requireTrustedPrincipal principal with
  | error e => exact .untrusted htr
  | ok _ =>
  cases hid : require (message.tenantId = principal.tenantId && message.event.subject = some reminderId)
      (.assistant .permissionDenied "delivery mirror identity mismatch" (some principal.tenantId)) with
  | error e =>
    obtain ⟨-, rfl⟩ := require_eq_error.mp hid
    exact .raised .permissionDenied rfl rfl
  | ok _ =>
  simp only [Op.ofExcept_ok_bind, Op.get_bind, hs, h.find?_reminder]
  cases hf : s.find? principal reminderId with
  | none => exact .notFound
  | some e =>
  obtain ⟨k, job⟩ := e
  have hget := (ReminderScheduler.find?_eq_some hf).1
  have hv := (h.tabular k job hget).valid
  have hmirrored : (job.mirrored message).Valid platform := ⟨hv.timezone, hv.sourceEventId,
    hv.payloadFingerprint⟩
  have hvalidate : (job.mirrored message).modelValidate platform = .ok (job.mirrored message) :=
    hmirrored.modelValidate
  have hassign : PostgresReminderScheduler.assignMirror message (job.mirrored message) (.ofJob job) =
      .ofJob (job.mirrored message) := rfl
  obtain ⟨t', hrun, hagrees⟩ := h.updateRow _ now hget (h.found_reminder hf) hassign ⟨rfl, rfl⟩ rfl
    ⟨hmirrored, rfl, ha⟩ (check_mirrored hm)
  simp only [Option.map_some, readPayload_ofJob (h.tabular k job hget), Op.ofExcept_ok_bind, hvalidate,
    Op.modify_bind]
  rw [Op.bind_ok hrun]
  exact .returned rfl hagrees

/-- The job `mark_sent` leaves, where it kept no error. -/
def ScheduledReminder.sentAt (job : ScheduledReminder) (clock : Instant) : ScheduledReminder :=
  { job with deliveryStatus := .published, sent := true, publishedAt := some clock }

theorem SchedulerAgrees.markSent (h : SchedulerAgrees platform s t) {clock : Instant}
    (hs : PostgresOutbox.bindTexts [principal.tenantId, reminderId] = .ok ())
    (hclean : ∀ k job, s.find? principal reminderId = some (k, job) → job.lastError = none) :
    SchedulerMatches platform Eq False s t (ReminderScheduler.markSent principal reminderId clock s)
      (PostgresReminderScheduler.markSent platform principal reminderId clock now t) := by
  unfold ReminderScheduler.markSent PostgresReminderScheduler.markSent
  cases htr : requireTrustedPrincipal principal with
  | error e => exact .untrusted htr
  | ok _ =>
  simp only [Op.ofExcept_ok_bind, Op.get_bind, hs, h.find?_reminder]
  cases hf : s.find? principal reminderId with
  | none => exact .notFound
  | some e =>
  obtain ⟨k, job⟩ := e
  obtain ⟨hget, htenant, -⟩ := ReminderScheduler.find?_eq_some hf
  have hv := (h.tabular k job hget).valid
  have herror := hclean k job hf
  have hsent : (job.sentAt clock).Valid platform := ⟨hv.timezone, hv.sourceEventId,
    hv.payloadFingerprint⟩
  have hcopy : ({ job with
      deliveryStatus := .published
      publishedAt := some clock
      lastError := none
      sent := true } : ScheduledReminder) = job.sentAt clock := by
    simp [ScheduledReminder.sentAt, herror]
  have hvalidate : (job.sentAt clock).modelValidate platform = .ok (job.sentAt clock) :=
    hsent.modelValidate
  have hassign : PostgresReminderScheduler.assignSent clock (job.sentAt clock) (.ofJob job) =
      .ofJob (job.sentAt clock) := by
    simp [PostgresReminderScheduler.assignSent, ReminderRow.ofJob, ReminderRow.withError,
      ScheduledReminder.sentAt, herror]
  have hcheck : (ReminderRow.ofJob (job.sentAt clock)).check = true := by
    simp [ReminderRow.check, ReminderRow.errorShapeCheck, ReminderRow.legacySentCheck,
      ReminderRow.stateMetadataCheck, ReminderRow.ofJob, ScheduledReminder.sentAt, herror]
  obtain ⟨t', hrun, hagrees⟩ := h.updateRow
    (fun r => r.tenantId = principal.tenantId && r.idempotencyKey = (ReminderRow.ofJob job).idempotencyKey)
    now hget (h.found_key htenant (h.own k job hget).2) hassign
    ⟨rfl, rfl⟩ rfl ⟨hsent, rfl, (h.tabular k job hget).counted⟩ hcheck
  simp only [Option.map_some, readPayload_ofJob (h.tabular k job hget), Op.ofExcept_ok_bind, hcopy, hvalidate,
    Op.modify_bind]
  rw [Op.bind_ok hrun]
  exact .returned rfl hagrees

/-- The payloads that a query reads are the jobs it selects, in the order of the query. -/
theorem SchedulerAgrees.selectPayloads (h : SchedulerAgrees platform s t)
    (selected : ReminderRow → Bool) :
    PostgresReminderScheduler.selectPayloads platform selected t =
      (.ok ((s.jobsByKey.values.filter fun j => selected (.ofJob j)).insertionSort
        ReminderScheduler.notifiedBefore), t) := by
  have hfilter : t.filter selected =
      (s.jobsByKey.values.filter fun j => selected (.ofJob j)).map ReminderRow.ofJob := by
    rw [h.rows, List.filter_map]
    rfl
  have hsort : (t.filter selected).insertionSort PostgresReminderScheduler.orderedBefore =
      ((s.jobsByKey.values.filter fun j => selected (.ofJob j)).insertionSort
        ReminderScheduler.notifiedBefore).map ReminderRow.ofJob := by
    rw [hfilter]
    exact (List.map_insertionSort ReminderScheduler.notifiedBefore
      PostgresReminderScheduler.orderedBefore ReminderRow.ofJob _ fun _ _ _ _ => Iff.rfl).symm
  have hread : ∀ r ∈ (t.filter selected).insertionSort PostgresReminderScheduler.orderedBefore,
      PostgresReminderScheduler.readPayload platform r = .ok r.payload := by
    intro r hr
    rw [hsort] at hr
    obtain ⟨j, hj, rfl⟩ := List.mem_map.mp hr
    have hj := List.mem_of_mem_filter ((List.perm_insertionSort _ _).mem_iff.mp hj)
    obtain ⟨k, hk⟩ := Dict.mem_values.mp hj
    exact readPayload_ofJob (h.tabular k j hk)
  simp only [PostgresReminderScheduler.selectPayloads, Op.get_bind]
  rw [mapM_eq_ok hread, hsort, List.map_map]
  exact congrArg (fun l => (Except.ok l, t)) (List.map_id _)

/-- The time a query compares with has no zone. -/
def NaiveNow (principal : Principal) (now : DateTime) : Prop :=
  principal.trusted = true ∧ now.offset = none

theorem SchedulerAgrees.due (h : SchedulerAgrees platform s t) {now : DateTime}
    (hs : PostgresOutbox.bindTexts [principal.tenantId] = .ok ()) :
    SchedulerMatches platform Eq (NaiveNow principal now) s t (ReminderScheduler.due principal now s)
      (PostgresReminderScheduler.due platform principal now t) := by
  unfold ReminderScheduler.due PostgresReminderScheduler.due
  cases htr : requireTrustedPrincipal principal with
  | error e => exact .untrusted htr
  | ok _ =>
  have htr := requireTrustedPrincipal_eq_ok.mp htr
  cases hoffset : now.offset with
  | none =>
    simp only [DateTime.awareMicros, hoffset]
    exact .refused ⟨htr, hoffset⟩ rfl rfl
  | some offset =>
    simp only [DateTime.awareMicros, hoffset, hs, Op.ofExcept_ok_bind, Op.get_bind, h.selectPayloads]
    exact .returned rfl h

theorem SchedulerAgrees.listForTenant (h : SchedulerAgrees platform s t)
    (hs : PostgresOutbox.bindTexts [principal.tenantId] = .ok ()) :
    SchedulerMatches platform List.Perm False s t (ReminderScheduler.listForTenant principal s)
      (PostgresReminderScheduler.listForTenant platform principal t) := by
  unfold ReminderScheduler.listForTenant PostgresReminderScheduler.listForTenant
  cases htr : requireTrustedPrincipal principal with
  | error e => exact .untrusted htr
  | ok _ =>
  simp only [hs, Op.ofExcept_ok_bind, Op.get_bind, h.selectPayloads]
  have hown : (s.jobsByKey.entries.filter fun e => e.1.1 = principal.tenantId).map Prod.snd =
      s.jobsByKey.values.filter fun j => decide ((ReminderRow.ofJob j).tenantId = principal.tenantId) := by
    rw [Dict.values, List.filter_map]
    congr 1
    refine List.filter_congr fun e he => ?_
    simp [ReminderRow.ofJob, (h.mem_own he).1]
  rw [hown]
  exact .returned (List.perm_insertionSort _ _).symm h

end Calls

/-! ## Histories -/

/-- A call of a scheduler. `offsetAt` is the zone of `starts_at`. -/
inductive SchedulerCall (platform : Platform) where
  | scheduleBeforeEvent (principal : Principal) (request : ReminderScheduler.ScheduleRequest)
    (offsetAt : Instant → Int) (fresh : Uuid)
  | mirrorDelivery (principal : Principal) (reminderId : String) (message : OutboxMessage platform)
  | markSent (principal : Principal) (reminderId : String) (clock : Instant)
  | due (principal : Principal) (now : DateTime)
  | listForTenant (principal : Principal)

namespace SchedulerCall

def single {σ : Type} (x : Op σ PyError ScheduledReminder) : Op σ PyError (List ScheduledReminder) := do
  let job ← x
  return [job]

def run : SchedulerCall platform → Op ReminderScheduler PyError (List ScheduledReminder)
  | scheduleBeforeEvent p request _ fresh =>
    single (ReminderScheduler.scheduleBeforeEvent platform p request fresh)
  | mirrorDelivery p id message => single (ReminderScheduler.mirrorDelivery p id message)
  | markSent p id clock => single (ReminderScheduler.markSent p id clock)
  | due p now => ReminderScheduler.due p now
  | listForTenant p => ReminderScheduler.listForTenant p

/-- The SQL method, at a time of the server. -/
def runPostgres (now : Instant) :
    SchedulerCall platform → PostgresReminderScheduler.Method (List ScheduledReminder)
  | scheduleBeforeEvent p request offsetAt fresh =>
    single (PostgresReminderScheduler.scheduleBeforeEvent platform p request offsetAt fresh now)
  | mirrorDelivery p id message => single (PostgresReminderScheduler.mirrorDelivery p id message now)
  | markSent p id clock => single (PostgresReminderScheduler.markSent platform p id clock now)
  | due p now => PostgresReminderScheduler.due platform p now
  | listForTenant p => PostgresReminderScheduler.listForTenant platform p

/-- How the answers are compared: a listing has no order. -/
def SameReminders : SchedulerCall platform → List ScheduledReminder → List ScheduledReminder → Prop
  | listForTenant _ => List.Perm
  | _ => Eq

/-- The texts of the call are texts the server stores. -/
def Storable : SchedulerCall platform → Prop
  | scheduleBeforeEvent p request _ fresh => ∀ notifyAt,
    PostgresOutbox.bindTexts (ReminderScheduler.newJob p request notifyAt fresh).texts = .ok ()
  | mirrorDelivery p id _ => PostgresOutbox.bindTexts [p.tenantId, id] = .ok ()
  | markSent p id _ => PostgresOutbox.bindTexts [p.tenantId, id] = .ok ()
  | due p _ => PostgresOutbox.bindTexts [p.tenantId] = .ok ()
  | listForTenant p => PostgresOutbox.bindTexts [p.tenantId] = .ok ()

/-- A storable call whose zone is steady and whose message is valid, with a count the column holds. -/
def InRange (call : SchedulerCall platform) : Prop :=
  call.Storable ∧
  match call with
  | scheduleBeforeEvent _ request offsetAt _ => SteadyZone request offsetAt
  | mirrorDelivery _ _ message => message.StateMetadata ∧ message.attempts ≤ maxInteger
  | _ => True

/-- The reminder that `mark_sent` finds keeps an error. -/
def SendsFailed (s : ReminderScheduler) : SchedulerCall platform → Prop
  | markSent p id _ => ∃ k job, s.find? p id = some (k, job) ∧ job.lastError ≠ none
  | _ => False

/-- The arguments are rejected with an exception of the host: a time that is naive or out of range, or a
field that the model rejects. -/
def Malformed : SchedulerCall platform → Prop
  | scheduleBeforeEvent p request _ fresh => PersonalAssistant.Malformed platform p request fresh
  | due p now => NaiveNow p now
  | _ => False

end SchedulerCall

open SchedulerCall (single)

theorem SchedulerMatches.single {refused refused' : Prop}
    {x : Op ReminderScheduler PyError ScheduledReminder}
    {y : PostgresReminderScheduler.Method ScheduledReminder} (hrefused : refused → refused')
    (h : SchedulerMatches platform Eq refused s t (x s) (y t)) :
    SchedulerMatches platform Eq refused' s t (single x s) (single y t) := by
  unfold SchedulerCall.single
  rw [Op.bind_apply, Op.bind_apply]
  generalize x s = o at h ⊢
  generalize y t = o' at h ⊢
  cases h with
  | returned hr h => exact .returned (congrArg (fun a => [a]) hr) h
  | raised code h h' => exact .raised code h h'
  | refused hr h h' => exact .refused (hrefused hr) h h'

theorem SchedulerCall.matches_run (h : SchedulerAgrees platform s t) (now : Instant)
    {call : SchedulerCall platform} (hr : call.InRange) (hf : ¬ call.SendsFailed s) :
    SchedulerMatches platform call.SameReminders call.Malformed s t (call.run s)
      (call.runPostgres now t) := by
  cases call with
  | scheduleBeforeEvent p request offsetAt fresh =>
    exact .single id (h.scheduleBeforeEvent hr.2 hr.1)
  | mirrorDelivery p id message =>
    exact .single False.elim (h.mirrorDelivery hr.2.1 hr.2.2 hr.1)
  | markSent p id clock =>
    have hclean : ∀ k job, s.find? p id = some (k, job) → job.lastError = none := by
      intro k job hfind
      by_contra herror
      exact hf ⟨k, job, hfind, herror⟩
    exact .single False.elim (h.markSent hr.1 hclean)
  | due p now => exact h.due hr.1
  | listForTenant p => exact h.listForTenant hr.1

/-- States of both stores after the same calls in range, from empty ones. -/
inductive BothSchedule (platform : Platform) : ReminderScheduler → ReminderTable → Prop where
  | empty : BothSchedule platform .empty []
  | call {s : ReminderScheduler} {t : ReminderTable} (c : SchedulerCall platform) (now : Instant) :
      BothSchedule platform s t → c.InRange → ¬ c.SendsFailed s →
      BothSchedule platform (c.run s).2 (c.runPostgres now t).2

theorem SchedulerMatches.agrees {α : Type} {R : α → α → Prop} {refused : Prop}
    (h : SchedulerAgrees platform s t) {x : Except PyError α × ReminderScheduler}
    {y : Except PyError α × ReminderTable} (hm : SchedulerMatches platform R refused s t x y) :
    SchedulerAgrees platform x.2 y.2 := by
  cases hm with
  | returned _ h' => exact h'
  | raised => exact h
  | refused => exact h

theorem SchedulerAgrees.empty (platform : Platform) : SchedulerAgrees platform .empty [] where
  rows := rfl
  own _ _ h := by cases h
  index := by intro tenant id key; simp [ReminderScheduler.empty]
  tabular _ _ h := by cases h

theorem BothSchedule.agrees (h : BothSchedule platform s t) : SchedulerAgrees platform s t := by
  induction h with
  | empty => exact .empty platform
  | call c now _ hr hf ih => exact (c.matches_run ih now hr hf).agrees ih

theorem SchedulerAgrees.payloads (h : SchedulerAgrees platform s t) :
    t.map ReminderRow.payload = s.jobsByKey.values := by
  rw [h.rows, List.map_map]
  exact List.map_id _

theorem scheduleBeforeEvent_of_malformed {request : ReminderScheduler.ScheduleRequest} {fresh : Uuid}
    (h : Malformed platform principal request fresh) :
    ∃ e, e.code? = none ∧
      ReminderScheduler.scheduleBeforeEvent platform principal request fresh s = (.error e, s) := by
  obtain ⟨htr, hnone⟩ := h
  unfold ReminderScheduler.scheduleBeforeEvent
  simp only [requireTrustedPrincipal_of_trusted htr, Op.ofExcept_ok_bind]
  cases hn : ReminderScheduler.notifyAtOf request with
  | error e => exact ⟨e, notifyAtOf_code hn, rfl⟩
  | ok notifyAt =>
    simp only [hn, except_ok_bind] at hnone
    simp only [Op.ofExcept_ok_bind]
    cases hjob : (ReminderScheduler.newJob principal request notifyAt fresh).modelValidate platform with
    | error e => exact ⟨e, modelValidate_code hjob, rfl⟩
    | ok job => exact absurd hjob (hnone job)

/-- Malformed arguments raise something other than an `AssistantError`. -/
theorem SchedulerCall.run_of_malformed {call : SchedulerCall platform} (h : call.Malformed) :
    ∃ e, e.code? = none ∧ (call.run s).1 = .error e := by
  cases call with
  | scheduleBeforeEvent p request offsetAt fresh =>
    obtain ⟨e, hcode, he⟩ := @scheduleBeforeEvent_of_malformed platform s p request fresh h
    exact ⟨e, hcode, congrArg Prod.fst (Op.bind_error he)⟩
  | due p now =>
    obtain ⟨htr, hoffset⟩ := h
    refine ⟨.valueError "now must be timezone-aware", rfl, ?_⟩
    simp only [run, ReminderScheduler.due, requireTrustedPrincipal_of_trusted htr, DateTime.awareMicros,
      hoffset, Op.ofExcept_ok_bind, Op.ofExcept_error_bind]
    rfl
  | mirrorDelivery => exact h.elim
  | markSent => exact h.elim
  | listForTenant => exact h.elim

/-- Both schedulers implement the same store. After the same calls they hold the same reminders, and the
next call returns the same, or raises an `AssistantError` with the same code and changes nothing;
malformed arguments are refused by both with an exception of the host. -/
theorem schedulers_agree (h : BothSchedule platform s t) :
    t.map ReminderRow.payload = s.jobsByKey.values ∧
    ∀ (c : SchedulerCall platform) (now : Instant), c.InRange → ¬ c.SendsFailed s →
      SameAnswer c.SameReminders c.Malformed (c.run s).1 (c.runPostgres now t).1 ∧
      (c.runPostgres now t).2.map ReminderRow.payload = (c.run s).2.jobsByKey.values ∧
      (∀ e, (c.run s).1 = .error e → (c.run s).2 = s ∧ (c.runPostgres now t).2 = t) ∧
      (c.Malformed → ∃ e e', (c.run s).1 = .error e ∧ (c.runPostgres now t).1 = .error e' ∧
        e.code? = none ∧ e'.code? = none) := by
  have hA := h.agrees
  refine ⟨hA.payloads, fun c now hr hf => ?_⟩
  have hm := c.matches_run hA now hr hf
  refine ⟨?_, (hm.agrees hA).payloads, ?_, fun hmalformed => ?_⟩
  · generalize c.run s = x at hm ⊢
    generalize c.runPostgres now t = y at hm ⊢
    cases hm with
    | returned hsame => exact .returned hsame
    | raised code h₁ h₂ => exact .raised code h₁ h₂
    | refused hp h₁ h₂ => exact .refused hp h₁ h₂
  · intro e he
    generalize c.run s = x at hm he ⊢
    generalize c.runPostgres now t = y at hm ⊢
    cases hm with
    | returned => cases he
    | raised => exact ⟨rfl, rfl⟩
    | refused => exact ⟨rfl, rfl⟩
  · obtain ⟨e, hcode, he⟩ := @SchedulerCall.run_of_malformed platform s c hmalformed
    generalize c.run s = x at hm he ⊢
    generalize c.runPostgres now t = y at hm ⊢
    cases hm with
    | returned => cases he
    | raised code h₁ => cases he; simp [hcode] at h₁
    | refused _ h₁ h₂ => exact ⟨_, _, rfl, rfl, h₁, h₂⟩

/-! ### What the stores answer differently -/

section Samples

def sampleSchedule : ReminderScheduler.ScheduleRequest where
  calendarEventId := "cal-1"
  startsAt := ⟨⟨864000000000, by decide⟩, some 0⟩
  channel := "whatsapp"
  recipient := "user-1"
  body := "Meeting"
  timezone := "UTC"
  sourceEventId := "evt-1"
  payloadFingerprint := "1befb71215e28f23156f3fe9f4ed33a250cb9f7ceb0da7daac682ab05070766d"
  minutesBefore := 60
  idempotencyKey := "key-1"
  reminderId := some "rem-1"

/-- The outbox message of the reminder, with a failure that was retried. -/
def sampleRetried (attempts : Nat) : OutboxMessage samplePlatform where
  id := "out-1"
  tenantId := "tenant-1"
  event := sampleEvent
  idempotencyKey := "key-1"
  dispatchStatus := .pending
  claimToken := none
  claimOwner := none
  claimedUntil := none
  nextAttemptAt := some ⟨0, Nat.zero_le _⟩
  attempts := attempts
  createdAt := ⟨0, Nat.zero_le _⟩
  sendingAt := none
  publishedAt := none
  lastError := some ⟨.network, .timeout, none, ⟨0, Nat.zero_le _⟩⟩

/-- A zone whose offset is always the same. -/
def sampleCall (request : ReminderScheduler.ScheduleRequest) (offset : Int) :
    SchedulerCall samplePlatform := .scheduleBeforeEvent .sample request (fun _ => offset) .zero

/-- Schedule the sample, mirror a retried message into it, and mark it sent. -/
def sampleHistory (attempts : Nat) : List (SchedulerCall samplePlatform) :=
  [sampleCall sampleSchedule 0, .mirrorDelivery .sample "rem-1" (sampleRetried attempts),
    .markSent .sample "rem-1" ⟨0, Nat.zero_le _⟩]

/-- What both stores answer to the last call of a history. -/
def lastAnswers (history : List (SchedulerCall samplePlatform)) (call : SchedulerCall samplePlatform) :
    Except PyError (List ScheduledReminder) × Except PyError (List ScheduledReminder) :=
  let s := history.foldl (fun s c => (c.run s).2) .empty
  let t := history.foldl (fun t c => (c.runPostgres ⟨0, Nat.zero_le _⟩ t).2) []
  ((call.run s).1, (call.runPostgres ⟨0, Nat.zero_le _⟩ t).1)

/-- A start without a zone, a zone whose offset changes within the lead time, a start out of range in
UTC, a text with a null character, a count beyond the column, and a reminder marked as sent that kept an
error. -/
theorem schedulers_differ :
    let differ (history : List (SchedulerCall samplePlatform)) (call : SchedulerCall samplePlatform) :=
      ¬ SameAnswer Eq False (lastAnswers history call).1 (lastAnswers history call).2
    differ [] (sampleCall { sampleSchedule with startsAt := ⟨⟨0, Nat.zero_le _⟩, none⟩ } 0) ∧
    differ [] (sampleCall sampleSchedule 3600000000) ∧
    differ [] (sampleCall { sampleSchedule with
      startsAt := ⟨⟨0, Nat.zero_le _⟩, some 3600000000⟩
      minutesBefore := -60 } 3600000000) ∧
    differ [] (sampleCall { sampleSchedule with body := "\x00" } 0) ∧
    differ ((sampleHistory 2147483648).take 1) (.mirrorDelivery .sample "rem-1" (sampleRetried 2147483648)) ∧
    differ ((sampleHistory 1).take 2) (.markSent .sample "rem-1" ⟨0, Nat.zero_le _⟩) := by
  intro differ
  refine ⟨fun h => ?_, fun h => ?_, fun h => ?_, fun h => ?_, fun h => ?_, fun h => ?_⟩
  · exact h.code rfl
  · exact absurd (congrArg (Option.map (List.map ScheduledReminder.notifyAt)) h.toOption_eq) (by decide +kernel)
  · exact absurd (congrArg Option.isSome h.toOption_eq) (by decide +kernel)
  · exact h.code rfl
  · exact h.code rfl
  · exact absurd (congrArg (Option.map (List.map ScheduledReminder.lastError)) h.toOption_eq) (by decide +kernel)

theorem sampleSchedule_inRange : (sampleCall sampleSchedule 0).InRange := by
  have htexts : PostgresOutbox.bindTexts (ReminderScheduler.newJob .sample sampleSchedule ⟨0, Nat.zero_le _⟩
      .zero).texts = .ok () := by rfl
  refine ⟨fun _ => htexts, ?_⟩
  rintro offset ⟨⟩
  have hwall : sampleSchedule.startsAt.wall.addSeconds (-(sampleSchedule.minutesBefore * 60)) =
      .ok ⟨860400000000, by decide⟩ := rfl
  have hstarts : sampleSchedule.startsAt.canonicalUtc "starts_at" = .ok ⟨864000000000, by decide⟩ := rfl
  exact ⟨⟨fun _ => ⟨_, hstarts⟩, fun _ => ⟨_, hwall⟩⟩, fun _ _ => rfl⟩

/-- The schedulers agree on what is due after the sample was scheduled. -/
theorem schedulers_agree_on_sample :
    let schedule := sampleCall sampleSchedule 0
    let due : SchedulerCall samplePlatform := .due .sample (.ofInstant ⟨864000000000, by decide⟩)
    let s := (schedule.run .empty).2
    let t := (schedule.runPostgres ⟨0, Nat.zero_le _⟩ []).2
    SameAnswer Eq due.Malformed (due.run s).1 (due.runPostgres ⟨0, Nat.zero_le _⟩ t).1 := by
  intro schedule due s t
  have hreach : BothSchedule samplePlatform s t :=
    .call schedule ⟨0, Nat.zero_le _⟩ .empty sampleSchedule_inRange id
  exact ((schedulers_agree hreach).2 due ⟨0, Nat.zero_le _⟩ ⟨rfl, trivial⟩ id).1

end Samples

end PersonalAssistant
