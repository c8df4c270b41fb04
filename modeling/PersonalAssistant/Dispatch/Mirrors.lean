import PersonalAssistant.Dispatch.Accounts
import PersonalAssistant.Dispatch.RetrySpacing

/-!
# Mirroring into the scheduler

Jobs are never deleted and keep their reminder identifier, so a message that named a scheduled reminder
once names one ever after. Mirroring such a message returns; mirroring any other message of the tenant
raises one of the errors that the callers catch, and changes nothing.
-/
namespace PersonalAssistant

open Lib InMemoryOutbox InMemoryReminderTransaction ReminderStores Relation

variable {platform : Platform} {s s' t : ReminderScheduler} {m m' : OutboxMessage platform}
  {principal : Principal}

/-! ## Jobs stay -/

/-- Every job is still there, under its reminder identifier. -/
def JobsKept (s s' : ReminderScheduler) : Prop :=
  ∀ k job, s.jobsByKey.get? k = some job →
    ∃ job', s'.jobsByKey.get? k = some job' ∧ job'.reminderId = job.reminderId

theorem JobsKept.refl (s : ReminderScheduler) : JobsKept s s := fun _ job h => ⟨job, h, rfl⟩

theorem JobsKept.trans (h : JobsKept s t) (g : JobsKept t s') : JobsKept s s' := by
  intro k job hjob
  obtain ⟨job', hjob', hid⟩ := h k job hjob
  obtain ⟨job'', hjob'', hid'⟩ := g k job' hjob'
  exact ⟨job'', hjob'', hid'.trans hid⟩

theorem JobsKept.setJob {k : Key} {job job' : ScheduledReminder} (hjob : s.jobsByKey.get? k = some job)
    (hid : job'.reminderId = job.reminderId) : JobsKept s (s.setJob k job') := by
  intro j other hother
  rw [ReminderScheduler.jobsByKey_setJob, Dict.get?_set]
  split_ifs with hj
  · subst hj
    cases hjob.symm.trans hother
    exact ⟨job', rfl, hid⟩
  · exact ⟨other, hother, rfl⟩

theorem StoreCall.jobsKept_run (call : StoreCall platform) (u : ReminderStores platform) :
    JobsKept u.scheduler (call.run u).2.scheduler := by
  rw [StoreCall.scheduler_run]
  cases call with
  | scheduleBeforeEvent p request fresh =>
    dsimp only
    obtain ⟨e, -, hs⟩ | ⟨notifyAt, job, -, -, -, ⟨_, -, -, -, hs⟩ | ⟨hnone, -, -, hs⟩⟩ :=
      ReminderScheduler.scheduleBeforeEvent_cases
        (Prod.eta (ReminderScheduler.scheduleBeforeEvent platform p request fresh u.scheduler)).symm
    · rw [hs]
      exact .refl _
    · rw [hs]
      exact .refl _
    · rw [hs]
      intro k other hother
      refine ⟨other, ?_, rfl⟩
      dsimp only
      rw [Dict.get?_set_of_ne]
      · exact hother
      · rintro rfl
        cases hnone.symm.trans hother
  | mirrorDelivery p id message =>
    dsimp only
    obtain ⟨e, -, hs⟩ | ⟨k, job, -, -, -, hfind, -, -, hs⟩ := ReminderScheduler.mirrorDelivery_cases
      (Prod.eta (ReminderScheduler.mirrorDelivery p id message u.scheduler)).symm
    · rw [hs]
      exact .refl _
    · rw [hs]
      exact .setJob (ReminderScheduler.find?_eq_some hfind).1 rfl
  | markSent p id clock =>
    dsimp only
    obtain ⟨e, -, hs⟩ | ⟨k, job, hfind, hs⟩ := ReminderScheduler.markSent_cases
      (Prod.eta (ReminderScheduler.markSent p id clock u.scheduler)).symm
    · rw [hs]
      exact .refl _
    · rw [hs]
      exact .setJob (ReminderScheduler.find?_eq_some hfind).1 rfl
  | _ => exact .refl _

theorem StorePath.jobsKept {ok : StoreCall platform → Prop} {u u' : ReminderStores platform}
    (path : StorePath ok u u') : JobsKept u.scheduler u'.scheduler :=
  path.keeps (P := fun t => JobsKept u.scheduler t.scheduler)
    (fun call t _ ht => ht.trans (call.jobsKept_run t)) (fun _ _ ht => ht) (.refl _)

theorem DispatchState.Outcome.jobsKept {c c' : DispatchState platform} (out : c.Outcome c') :
    JobsKept c.stores.scheduler c'.stores.scheduler := by
  cases out with
  | quiet path => exact path.jobsKept
  | claimed fresh path drawn => exact path.jobsKept
  | confirmed held path => exact path.jobsKept

/-! ## Messages with a job -/

theorem ReminderScheduler.isSome_find? {id : String} : (s.find? principal id).isSome = true ↔
    ∃ k job, s.jobsByKey.get? k = some job ∧ k.1 = principal.tenantId ∧ job.reminderId = id := by
  unfold ReminderScheduler.find?
  rw [List.find?_isSome]
  constructor
  · rintro ⟨e, hmem, hcond⟩
    simp only [Bool.and_eq_true, decide_eq_true_eq] at hcond
    exact ⟨e.1, e.2, Dict.mem_entries.mp hmem, hcond⟩
  · rintro ⟨k, job, hjob, hcond⟩
    exact ⟨(k, job), Dict.mem_entries.mpr hjob, by simpa using hcond⟩

theorem Scheduled.kept (h : Scheduled principal s m) (kept : JobsKept s s') : Scheduled principal s' m := by
  obtain ⟨subject, hsubject, hfind⟩ := h
  obtain ⟨k, job, hjob, htenant, hid⟩ := ReminderScheduler.isSome_find?.mp hfind
  obtain ⟨job', hjob', hid'⟩ := kept k job hjob
  exact ⟨subject, hsubject, ReminderScheduler.isSome_find?.mpr ⟨k, job', hjob', htenant, hid'.trans hid⟩⟩

/-- Only the tenant of the principal and the event of the message matter. -/
theorem Scheduled.congr {other : Principal} (h : Scheduled principal s m)
    (tenant : other.tenantId = principal.tenantId) (event : m'.event = m.event) :
    Scheduled other s m' := by
  obtain ⟨subject, hsubject, hfind⟩ := h
  refine ⟨subject, ?_, ?_⟩
  · unfold subjectOf at hsubject ⊢
    rwa [event]
  · unfold ReminderScheduler.find? at hfind ⊢
    rwa [tenant]

/-! ## What mirroring does -/

/-- The transaction with another scheduler. -/
def withScheduler (t : InMemoryReminderTransaction platform) (s : ReminderScheduler) :
    InMemoryReminderTransaction platform := { t with stores := { t.stores with scheduler := s } }

/-- Mirroring into a job that is there. -/
theorem mirrorDelivery_of_find? (trusted : principal.trusted = true)
    (tenant : m.tenantId = principal.tenantId) (jobs : JobsValid platform s) {subject : String}
    (event : m.event.subject = some subject) {k : Key} {job : ScheduledReminder}
    (hfind : s.find? principal subject = some (k, job)) :
    ReminderScheduler.mirrorDelivery principal subject m s =
      (.ok (job.mirrored m), s.setJob k (job.mirrored m)) := by
  have hjob := jobs k job (ReminderScheduler.find?_eq_some hfind).1
  have hvalid : (job.mirrored m).Valid platform :=
    ⟨hjob.timezone, hjob.sourceEventId, hjob.payloadFingerprint⟩
  unfold ReminderScheduler.mirrorDelivery
  rw [requireTrustedPrincipal_of_trusted trusted]
  simp only [tenant, event, decide_true, Bool.and_self, require_true, Op.ofExcept_ok_bind, Op.get_bind,
    hfind, hvalid.modelValidate, Op.modify_bind]
  rfl

theorem mirrorDelivery_of_none (trusted : principal.trusted = true)
    (tenant : m.tenantId = principal.tenantId) {subject : String}
    (event : m.event.subject = some subject) (hfind : s.find? principal subject = none) :
    ReminderScheduler.mirrorDelivery principal subject m s =
      (.error (ReminderScheduler.reminderNotFound principal), s) := by
  unfold ReminderScheduler.mirrorDelivery
  rw [requireTrustedPrincipal_of_trusted trusted]
  simp [tenant, event, hfind]

/-- Mirroring a message of the tenant returns where its reminder is scheduled, and raises one of the
errors that are caught where it is not. -/
theorem mirror_spec (trusted : principal.trusted = true) (tenant : m.tenantId = principal.tenantId)
    {t : InMemoryReminderTransaction platform} (jobs : JobsValid platform t.stores.scheduler) :
    (Scheduled principal t.stores.scheduler m ∧ ∃ subject k job, subjectOf m = some subject ∧
        t.stores.scheduler.find? principal subject = some (k, job) ∧
        mirror principal m t =
          (.ok (), withScheduler t (t.stores.scheduler.setJob k (job.mirrored m)))) ∨
      (¬ Scheduled principal t.stores.scheduler m ∧ ∃ e, mirror principal m t = (.error e, t) ∧
        (e.isValueError || e.code? = some ErrorCode.notFound) = true) := by
  unfold mirror
  cases hsubject : subjectOf m with
  | none => exact .inr ⟨by simp [Scheduled, hsubject], _, rfl, by simp [PyError.isValueError]⟩
  | some subject =>
    have event : m.event.subject = some subject := (Option.filter_eq_some_iff.mp hsubject).1
    cases hfind : t.stores.scheduler.find? principal subject with
    | some e =>
      refine .inl ⟨⟨subject, hsubject, by simp [hfind]⟩, subject, e.1, e.2, rfl, hfind, ?_⟩
      simp [Op.bind_apply, store, onScheduler, mirrorDelivery_of_find? trusted tenant jobs event hfind,
        withScheduler]
    | none =>
      refine .inr ⟨by simp [Scheduled, hsubject, hfind], ReminderScheduler.reminderNotFound principal, ?_,
        by simp [ReminderScheduler.reminderNotFound, PyError.code?]⟩
      simp [Op.bind_apply, store, onScheduler, mirrorDelivery_of_none trusted tenant event hfind]

/-- The variant that swallows a missing reminder mirrors where it can. -/
theorem mirrorIfScheduled_spec (trusted : principal.trusted = true)
    (tenant : m.tenantId = principal.tenantId) {t : InMemoryReminderTransaction platform}
    (jobs : JobsValid platform t.stores.scheduler) :
    (Scheduled principal t.stores.scheduler m ∧ mirrorIfScheduled principal m t = mirror principal m t) ∨
      (¬ Scheduled principal t.stores.scheduler m ∧ mirrorIfScheduled principal m t = (.ok (), t)) := by
  obtain ⟨hscheduled, subject, k, job, hsubject, -, hmirror⟩ | ⟨hmissing, e, hmirror, -⟩ :=
    mirror_spec trusted tenant jobs
  · refine .inl ⟨hscheduled, ?_⟩
    unfold mirror at hmirror ⊢
    unfold mirrorIfScheduled
    simp only [hsubject] at hmirror ⊢
    rw [Op.handle, hmirror]
  · refine .inr ⟨hmissing, ?_⟩
    unfold mirrorIfScheduled
    cases hsubject : subjectOf m with
    | none => rfl
    | some subject =>
      have event : m.event.subject = some subject := (Option.filter_eq_some_iff.mp hsubject).1
      have hfind : t.stores.scheduler.find? principal subject = none := by
        cases hf : t.stores.scheduler.find? principal subject with
        | none => rfl
        | some e => exact absurd ⟨subject, hsubject, by simp [hf]⟩ hmissing
      simp [Op.handle, Op.bind_apply, store, onScheduler,
        mirrorDelivery_of_none trusted tenant event hfind, ReminderScheduler.reminderNotFound, PyError.code?]

theorem mirrorIfScheduled_returns (trusted : principal.trusted = true)
    (tenant : m.tenantId = principal.tenantId) {t : InMemoryReminderTransaction platform}
    (jobs : JobsValid platform t.stores.scheduler) :
    ∃ s', mirrorIfScheduled principal m t = (.ok (), withScheduler t s') ∧
      JobsKept t.stores.scheduler s' ∧ JobsValid platform s' := by
  obtain ⟨hscheduled, hrun⟩ | ⟨-, hrun⟩ := mirrorIfScheduled_spec trusted tenant jobs
  · obtain ⟨-, subject, k, job, -, hfind, hmirror⟩ | ⟨hmissing, -⟩ := mirror_spec trusted tenant jobs
    · have hjob := (ReminderScheduler.find?_eq_some hfind).1
      have hvalid := jobs k job hjob
      exact ⟨_, hrun.trans hmirror, .setJob hjob rfl,
        jobs.setJob ⟨hvalid.timezone, hvalid.sourceEventId, hvalid.payloadFingerprint⟩⟩
    · exact absurd hscheduled hmissing
  · exact ⟨t.stores.scheduler, hrun, .refl _, jobs⟩

end PersonalAssistant
