import PersonalAssistant.Dispatch.Mirrors
import PersonalAssistant.Dispatch.Sends
import PersonalAssistant.Lib.Mirror
import PersonalAssistant.Outbox.Answers
import PersonalAssistant.Reminders.Effects

/-!
# The invariant of a transaction

Runs create a reminder together with its message, and a dispatch mirrors every message it changes before
it commits. `InStep` is the invariant of a transaction: every reminder agrees with its message, except
for the messages that are still to be mirrored. At its end none is left.
-/
namespace PersonalAssistant

open Lib InMemoryOutbox InMemoryReminderTransaction ReminderStores ReminderIdempotencyIdentity

variable {platform : Platform} {α β : Type} {D : Set ReminderIdempotencyIdentity}
  {claimed claimed' : Key → Prop} {pending : List (OutboxMessage platform)} {m : OutboxMessage platform}
  {u u' : ReminderStores platform} {principal : Principal}

/-! ## Slots -/

/-- A tenant and the identity of a reminder. -/
abbrev ReminderSlot (D : Set ReminderIdempotencyIdentity) := String × { d // d ∈ D }

/-- The key of the message. -/
def outboxKey (platform : Platform) (x : ReminderSlot D) : Key :=
  (x.1, x.2.val.idempotencyKey platform ++ ":outbox")

/-- The key of the job. -/
def notifyKey (platform : Platform) (x : ReminderSlot D) : Key :=
  (x.1, x.2.val.idempotencyKey platform ++ ":notify")

theorem outboxKey_injective (free : CollisionFree platform D) :
    Function.Injective (@outboxKey D platform) := by
  rintro ⟨tenant, d, hd⟩ ⟨tenant', d', hd'⟩ h
  obtain ⟨htenant, hkey⟩ := Prod.mk.inj h
  obtain rfl : tenant = tenant' := htenant
  obtain rfl := eq_of_idempotencyKey free hd hd' ((String.append_left_inj _).mp hkey)
  rfl

theorem notifyKey_injective (free : CollisionFree platform D) :
    Function.Injective (@notifyKey D platform) := by
  rintro ⟨tenant, d, hd⟩ ⟨tenant', d', hd'⟩ h
  obtain ⟨htenant, hkey⟩ := Prod.mk.inj h
  obtain rfl : tenant = tenant' := htenant
  obtain rfl := eq_of_idempotencyKey free hd hd' ((String.append_left_inj _).mp hkey)
  rfl

/-! ## Agreement -/

/-- The delivery fields of a job are those of its message; before the message was handed out for the
first time, the job has no retry time. -/
structure AgreesWith (claimed : Key → Prop) (job : ScheduledReminder) (m : OutboxMessage platform) :
    Prop where
  deliveryStatus : job.deliveryStatus = m.dispatchStatus
  attempts : job.attempts = m.attempts
  sendingAt : job.sendingAt = m.sendingAt
  publishedAt : job.publishedAt = m.publishedAt
  lastError : job.lastError = m.lastError
  sent : job.sent = true ↔ m.dispatchStatus ≠ .pending
  nextAttemptAt : claimed m.reference → job.nextAttemptAt = m.nextAttemptAt

theorem agreesWith_mirrored (claimed : Key → Prop) (job : ScheduledReminder) (m : OutboxMessage platform) :
    AgreesWith claimed (job.mirrored m) m :=
  ⟨rfl, rfl, rfl, rfl, rfl, by simp [ScheduledReminder.mirrored], fun _ => rfl⟩

/-- The stores between the calls of a transaction. -/
structure InStep (D : Set ReminderIdempotencyIdentity) (claimed : Key → Prop)
    (pending : List (OutboxMessage platform)) (u : ReminderStores platform) : Prop where
  inv : Inv u.outbox
  ids : MessageIds u.outbox
  jobs : JobsValid platform u.scheduler
  messages : ∀ k m, u.outbox.messagesByKey.get? k = some m → ∃ d ∈ D,
    k.2 = d.idempotencyKey platform ++ ":outbox" ∧ m.id = d.effectId platform .outboxMessage ∧
      m.event.subject = some (d.effectId platform .reminder)
  reminders : ∀ k job, u.scheduler.jobsByKey.get? k = some job → ∃ d ∈ D,
    k.2 = d.idempotencyKey platform ++ ":notify" ∧ job.reminderId = d.effectId platform .reminder
  stored : ∀ m ∈ pending, ∃ k, u.outbox.messagesByKey.get? k = some m
  handed : ∀ x, claimed x → ∃ k m, u.outbox.messagesByKey.get? k = some m ∧ m.reference = x
  mirrored : Mirrored (AgreesWith claimed)
    (fun x : ReminderSlot D => u.outbox.messagesByKey.get? (outboxKey platform x))
    (fun x => u.scheduler.jobsByKey.get? (notifyKey platform x)) pending

namespace InStep

theorem empty (D : Set ReminderIdempotencyIdentity) :
    InStep D (fun _ => False) [] (.empty : ReminderStores platform) where
  inv := Lawful.empty.outbox
  ids := Indexes.empty _
  jobs := Lawful.empty.jobs
  messages k m hm := by simp [ReminderStores.empty, InMemoryOutbox.empty] at hm
  reminders k job hjob := by simp [ReminderStores.empty, ReminderScheduler.empty] at hjob
  stored := by simp
  handed := by simp
  mirrored := .empty _ _

/-- Only the outbox and the scheduler matter. -/
theorem congr (h : InStep D claimed pending u) (outbox : u'.outbox = u.outbox)
    (scheduler : u'.scheduler = u.scheduler) : InStep D claimed pending u' := by
  obtain ⟨h₁, h₂, h₃, h₄, h₅, h₆, h₇, h₈⟩ := h
  rw [← outbox] at h₁ h₂ h₄ h₆ h₇ h₈
  rw [← scheduler] at h₃ h₅ h₈
  exact ⟨h₁, h₂, h₃, h₄, h₅, h₆, h₇, h₈⟩

/-- Fewer messages count as handed out. -/
theorem mono (h : InStep D claimed pending u) (fewer : ∀ x, claimed' x → claimed x) :
    InStep D claimed' pending u :=
  { h with
    handed := fun x hx => h.handed x (fewer x hx)
    mirrored := h.mirrored.imp fun _ _ _ _ _ hagree =>
      { hagree with nextAttemptAt := fun hx => hagree.nextAttemptAt (fewer _ hx) } }

/-- Messages that are pending may be handed out. -/
theorem hand (h : InStep D claimed pending u) :
    InStep D (fun x => claimed x ∨ ∃ m ∈ pending, m.reference = x) pending u := by
  refine { h with handed := ?_, mirrored := h.mirrored.imp fun x a b ha hnot hagree => ?_ }
  · rintro x (hx | ⟨m, hm, rfl⟩)
    · exact h.handed x hx
    · obtain ⟨k, hk⟩ := h.stored m hm
      exact ⟨k, m, hk, rfl⟩
  · refine { hagree with nextAttemptAt := ?_ }
    rintro (hx | ⟨m, hm, hreference⟩)
    · exact hagree.nextAttemptAt hx
    · obtain ⟨k, hk⟩ := h.stored m hm
      obtain rfl := eq_of_reference h.ids h.inv hk ha hreference
      cases hk.symm.trans ha
      exact absurd hm hnot

/-- A call leaves the messages it returns to be mirrored. -/
theorem call (h : InStep D claimed [] u) {o : OutboxCall platform} (old : o.isAdd = false)
    {ms : List (OutboxMessage platform)} {s' : InMemoryOutbox platform}
    (hrun : o.run u.outbox = (.ok ms, s')) : InStep D claimed ms { u with outbox := s' } := by
  have hs : (o.run u.outbox).2 = s' := congrArg Prod.snd hrun
  have rewrites := OutboxCall.rewrites_run old h.inv
  have answers := o.answers_run old hrun
  have inv' := (o.stepSpec u.outbox (o.run u.outbox).1 (o.run u.outbox).2 h.inv rfl).1
  have ids' := o.messageIds_run h.inv h.ids
  rw [hs] at rewrites inv' ids'
  refine ⟨inv', ids', h.jobs, fun k m' hm' => ?_, h.reminders, fun m hm => ?_, fun x hx => ?_,
    h.mirrored.change (fun x => ?_) fun x m hm => answers.changed _ m hm⟩
  · obtain ⟨m, hm, hsame⟩ := rewrites.of_get? hm'
    rw [hsame.id, hsame.event]
    exact h.messages k m hm
  · obtain ⟨k, hk, -⟩ := answers.stored m hm
    exact ⟨k, hk⟩
  · obtain ⟨k, m, hm, hreference⟩ := h.handed x hx
    obtain ⟨m', hm', hsame⟩ := rewrites.kept k m hm
    exact ⟨k, m', hm', (DispatchPool.reference_eq hsame).trans hreference⟩
  · have hmap := rewrites.map (fun _ _ _ => (rfl : () = ())) (outboxKey platform x)
    have hsome := congrArg Option.isSome hmap
    simpa only [Option.isSome_map] using hsome

/-- The slot of a stored message. -/
theorem exists_slot (h : InStep D claimed pending u) {k : Key}
    (hm : u.outbox.messagesByKey.get? k = some m) : ∃ x : ReminderSlot D, k = outboxKey platform x ∧
      m.event.subject = some (x.2.val.effectId platform .reminder) ∧ m.tenantId = x.1 := by
  obtain ⟨d, hd, hk, -, hsubject⟩ := h.messages k m hm
  exact ⟨(k.1, ⟨d, hd⟩), Prod.ext rfl hk, hsubject, (h.inv k m hm).tenant⟩

/-- The slot of a stored reminder. -/
theorem exists_reminder_slot (h : InStep D claimed pending u) {k : Key} {job : ScheduledReminder}
    (hjob : u.scheduler.jobsByKey.get? k = some job) : ∃ x : ReminderSlot D, k = notifyKey platform x ∧
      job.reminderId = x.2.val.effectId platform .reminder := by
  obtain ⟨d, hd, hk, hid⟩ := h.reminders k job hjob
  exact ⟨(k.1, ⟨d, hd⟩), Prod.ext rfl hk, hid⟩

theorem reminderId_eq (free : CollisionFree platform D) (h : InStep D claimed pending u)
    {x : ReminderSlot D} {job : ScheduledReminder}
    (hjob : u.scheduler.jobsByKey.get? (notifyKey platform x) = some job) :
    job.reminderId = x.2.val.effectId platform .reminder := by
  obtain ⟨y, hk, hid⟩ := h.exists_reminder_slot hjob
  rwa [notifyKey_injective free hk]

theorem subject_eq (free : CollisionFree platform D) (h : InStep D claimed pending u)
    {x : ReminderSlot D} (hm : u.outbox.messagesByKey.get? (outboxKey platform x) = some m) :
    m.event.subject = some (x.2.val.effectId platform .reminder) := by
  obtain ⟨y, hk, hsubject, -⟩ := h.exists_slot hm
  rwa [outboxKey_injective free hk]

theorem subjectOf_eq {d : ReminderIdempotencyIdentity}
    (h : m.event.subject = some (d.effectId platform .reminder)) :
    subjectOf m = some (d.effectId platform .reminder) := by
  unfold subjectOf
  rw [h, Option.filter_some, if_pos]
  simpa using effectId_ne d .reminder

/-- Both ways of mirroring a message that is to be mirrored return, and it is no longer pending. -/
theorem mirror (free : CollisionFree platform D) (trusted : principal.trusted = true)
    {t : InMemoryReminderTransaction platform} (h : InStep D claimed (m :: pending) t.stores)
    (tenant : m.tenantId = principal.tenantId) : ∃ s,
      PersonalAssistant.mirror principal m t = (.ok (), withScheduler t s) ∧
      mirrorIfScheduled principal m t = (.ok (), withScheduler t s) ∧
      InStep D claimed pending (withScheduler t s).stores := by
  obtain ⟨k, hm⟩ := h.stored m List.mem_cons_self
  obtain ⟨x, rfl, hsubject, hx⟩ := h.exists_slot hm
  obtain ⟨job, hjob⟩ := h.mirrored.exists_mirror (k := x) hm
  obtain ⟨d, hd, hkey, hid⟩ := h.reminders _ _ hjob
  obtain rfl : d = x.2.val := eq_of_idempotencyKey free hd x.2.2 ((String.append_left_inj _).mp hkey.symm)
  have hscheduled : Scheduled principal t.stores.scheduler m :=
    ⟨_, subjectOf_eq hsubject, ReminderScheduler.isSome_find?.mpr ⟨_, job, hjob, hx.symm.trans tenant, hid⟩⟩
  obtain ⟨-, subject, k, found, hsubject', hfind, hmirror⟩ | ⟨hmissing, -⟩ :=
    mirror_spec trusted tenant h.jobs
  · -- the job that is found is the one of the slot
    cases hsubject'.symm.trans (subjectOf_eq hsubject)
    obtain ⟨hfound, htenant, hfoundId⟩ := ReminderScheduler.find?_eq_some hfind
    obtain ⟨d', hd', hkey', hid'⟩ := h.reminders k found hfound
    obtain rfl := eq_of_effectId free hd' x.2.2 (hid'.symm.trans hfoundId)
    obtain rfl : k = notifyKey platform x := Prod.ext (htenant.trans (tenant.symm.trans hx)) hkey'
    refine ⟨_, hmirror, ?_, ?_⟩
    · obtain ⟨-, hrun⟩ | ⟨hmissing, -⟩ := mirrorIfScheduled_spec trusted tenant h.jobs
      · exact hrun.trans hmirror
      · exact absurd hscheduled hmissing
    · have hvalid := h.jobs _ _ hfound
      refine ⟨h.inv, h.ids, h.jobs.setJob ⟨hvalid.timezone, hvalid.sourceEventId,
        hvalid.payloadFingerprint⟩, h.messages, fun j other hother => ?_,
        fun m' hm' => h.stored m' (List.mem_cons_of_mem _ hm'), h.handed,
        h.mirrored.mirror (k := x) hm (fun j hj => ?_) ?_ (agreesWith_mirrored claimed found m)
          fun j hj => ?_⟩
      · simp only [withScheduler, ReminderScheduler.jobsByKey_setJob, Dict.get?_set] at hother
        split_ifs at hother with hk
        · cases hother
          exact hk ▸ ⟨x.2.val, x.2.2, hkey', hid'⟩
        · exact h.reminders j other hother
      · exact outboxKey_injective free (eq_of_reference h.ids h.inv hj hm rfl)
      · simp [withScheduler]
      · simp only [withScheduler, ReminderScheduler.jobsByKey_setJob]
        exact Dict.get?_set_of_ne _ _ fun heq => hj (notifyKey_injective free heq)
  · exact absurd hscheduled hmissing

end InStep

/-! ## Transactions -/

/-- A mirroring of a message that is to be mirrored is one of its tenant. -/
theorem of_mirror_eq_ok {t t' : InMemoryReminderTransaction platform} {a : Unit}
    (h : mirror principal m t = (.ok a, t')) :
    principal.trusted = true ∧ m.tenantId = principal.tenantId := by
  unfold mirror at h
  cases hsubject : subjectOf m with
  | none =>
    rw [hsubject] at h
    cases h
  | some subject =>
    rw [hsubject] at h
    obtain ⟨job, v, hstore, -⟩ := Op.bind_eq_ok h
    obtain ⟨stores, hstores, -⟩ := store_cases hstore
    obtain ⟨o, hrun, -⟩ := Op.zoom_cases hstores
    obtain ⟨e, he, -⟩ | ⟨k, j, trusted, tenant, -⟩ := ReminderScheduler.mirrorDelivery_cases hrun
    · cases he
    · exact ⟨trusted, tenant⟩

/-- A message of another tenant is refused with an error that nobody catches. -/
theorem refused_of_mirror {t t' : InMemoryReminderTransaction platform} {e : PyError} {subject : String}
    (hsubject : subjectOf m = some subject)
    (other : ¬ (principal.trusted = true ∧ m.tenantId = principal.tenantId))
    (h : mirror principal m t = (.error e, t')) :
    e.isValueError = false ∧ e.code? ≠ some ErrorCode.notFound := by
  unfold mirror at h
  rw [hsubject] at h
  dsimp only at h
  rcases hstore : store (onScheduler (ReminderScheduler.mirrorDelivery principal subject m)) t
    with ⟨e' | job, v⟩
  · rw [Op.bind_error hstore] at h
    cases h
    obtain ⟨stores, hstores, -⟩ := store_cases hstore
    obtain ⟨o, hrun, -⟩ := Op.zoom_cases hstores
    unfold ReminderScheduler.mirrorDelivery at hrun
    obtain ⟨e', he, ho⟩ | ⟨_, htrusted, hrun⟩ := Op.ofExcept_bind_cases hrun
    · cases ho
      unfold requireTrustedPrincipal at he
      split_ifs at he
      cases he
      exact ⟨rfl, by simp [PyError.code?]⟩
    obtain ⟨e', he, ho⟩ | ⟨_, htenant, hrun⟩ := Op.ofExcept_bind_cases hrun
    · cases ho
      obtain ⟨-, rfl⟩ := require_eq_error.mp he
      exact ⟨rfl, by simp [PyError.code?]⟩
    · rw [require_eq_ok, Bool.and_eq_true, decide_eq_true_eq] at htenant
      exact absurd ⟨requireTrustedPrincipal_eq_ok.mp htrusted, htenant.1⟩ other
  · rw [Op.bind_ok hstore] at h
    cases h

/-- A block that starts with the messages `pre` to be mirrored and returns leaves those of `post`. -/
def LeavesPending (D : Set ReminderIdempotencyIdentity) (claimed : Key → Prop)
    (pre : List (OutboxMessage platform)) (x : Block platform α)
    (post : α → List (OutboxMessage platform)) : Prop :=
  ∀ t a t', InStep D claimed pre t.stores → x t = (.ok a, t') → InStep D claimed (post a) t'.stores

namespace LeavesPending

variable {pre : List (OutboxMessage platform)}

theorem bind {x : Block platform α} {f : α → Block platform β}
    {mid : α → List (OutboxMessage platform)} {post : β → List (OutboxMessage platform)}
    (hx : LeavesPending D claimed pre x mid) (hf : ∀ a, LeavesPending D claimed (mid a) (f a) post) :
    LeavesPending D claimed pre (x >>= f) post := by
  intro t b t' h hrun
  obtain ⟨a, v, hxa, hfa⟩ := Op.bind_eq_ok hrun
  exact hf a v b t' (hx t a v h hxa) hfa

theorem pure (a : α) : LeavesPending D claimed pre (Pure.pure a : Block platform α) fun _ => pre := by
  intro t b t' h hrun
  cases hrun
  exact h

theorem raise (e : PyError) (post : α → List (OutboxMessage platform)) :
    LeavesPending D claimed pre (Op.raise e : Block platform α) post := by
  intro t b t' _ hrun
  cases hrun

theorem ofExcept (x : Except PyError α) :
    LeavesPending D claimed pre (Op.ofExcept x : Block platform α) fun _ => pre := by
  intro t b t' h hrun
  cases hrun
  exact h

theorem commit : LeavesPending D claimed pre (InMemoryReminderTransaction.commit : Block platform Unit)
    fun _ => pre := by
  intro t b t' h hrun
  cases commit_eq_ok hrun
  exact h

/-- Reading the outbox. -/
theorem list : LeavesPending D claimed pre
    (store (onOutbox (@listForTenant platform principal))) fun _ => pre := by
  intro t b t' h hrun
  obtain ⟨stores, hstores, rfl⟩ := store_cases hrun
  obtain ⟨o, hlist, rfl⟩ := Op.zoom_cases hstores
  unfold listForTenant at hlist
  obtain ⟨_, -, hlist⟩ := Op.ofExcept_bind_eq_ok hlist
  cases hlist
  exact h.congr rfl rfl

theorem batch {x : InMemoryOutbox.Method platform (List (OutboxMessage platform))}
    {c : OutboxCall platform} (hc : c.run = x) (old : c.isAdd = false) :
    LeavesPending D claimed [] (store (onOutbox x)) fun ms => ms := by
  intro t ms t' h hrun
  obtain ⟨stores, hstores, rfl⟩ := store_cases hrun
  obtain ⟨o, hcall, rfl⟩ := Op.zoom_cases hstores
  rw [← hc] at hcall
  exact h.call old hcall

theorem single {x : InMemoryOutbox.Method platform (OutboxMessage platform)} {c : OutboxCall platform}
    (hc : c.run = OutboxCall.single x) (old : c.isAdd = false) :
    LeavesPending D claimed [] (store (onOutbox x)) fun m => [m] := by
  intro t m t' h hrun
  obtain ⟨stores, hstores, rfl⟩ := store_cases hrun
  obtain ⟨o, hcall, rfl⟩ := Op.zoom_cases hstores
  refine h.call old ?_
  rw [hc]
  exact OutboxCall.single_eq_ok.mpr ⟨m, hcall, rfl⟩

variable {pending : List (OutboxMessage platform)} (free : CollisionFree platform D)
include free

theorem mirror (principal : Principal) (m : OutboxMessage platform) :
    LeavesPending D claimed (m :: pending) (PersonalAssistant.mirror principal m) fun _ => pending := by
  intro t a t' h hrun
  obtain ⟨trusted, tenant⟩ := of_mirror_eq_ok hrun
  obtain ⟨s, hmirror, -, hstep⟩ := h.mirror free trusted tenant
  cases hmirror.symm.trans hrun
  exact hstep

/-- No error of mirroring a message that is to be mirrored is caught. -/
theorem uncaught {t t' : InMemoryReminderTransaction platform} {e : PyError}
    (h : InStep D claimed (m :: pending) t.stores)
    (hrun : PersonalAssistant.mirror principal m t = (.error e, t')) :
    e.isValueError = false ∧ e.code? ≠ some ErrorCode.notFound := by
  by_cases other : principal.trusted = true ∧ m.tenantId = principal.tenantId
  · obtain ⟨s, hmirror, -⟩ := h.mirror free other.1 other.2
    cases hmirror.symm.trans hrun
  · obtain ⟨k, hm⟩ := h.stored m List.mem_cons_self
    obtain ⟨x, -, hsubject, -⟩ := h.exists_slot hm
    exact refused_of_mirror (InStep.subjectOf_eq hsubject) other hrun

theorem mirrorIfScheduled (principal : Principal) (m : OutboxMessage platform) :
    LeavesPending D claimed (m :: pending) (PersonalAssistant.mirrorIfScheduled principal m)
      fun _ => pending := by
  intro t a t' h hrun
  refine mirror free principal m t a t' h ?_
  obtain ⟨k, hm⟩ := h.stored m List.mem_cons_self
  obtain ⟨x, -, hsubject, -⟩ := h.exists_slot hm
  rcases hmirror : PersonalAssistant.mirror principal m t with ⟨e | b, v⟩
  · obtain ⟨-, huncaught⟩ := uncaught free h hmirror
    unfold PersonalAssistant.mirror at hmirror
    unfold PersonalAssistant.mirrorIfScheduled at hrun
    simp only [InStep.subjectOf_eq hsubject] at hmirror hrun
    rw [Op.handle, hmirror] at hrun
    simp only [if_neg huncaught] at hrun
    cases hrun
  · unfold PersonalAssistant.mirror at hmirror
    unfold PersonalAssistant.mirrorIfScheduled at hrun
    simp only [InStep.subjectOf_eq hsubject] at hmirror hrun
    rw [Op.handle, hmirror] at hrun
    exact hrun

end LeavesPending

namespace DispatchDueReminders

open LeavesPending

variable {d : DispatchDueReminders} {now : Instant} {message : OutboxMessage platform}
  (free : CollisionFree platform D)
include free

theorem leaves_sweepExpiredSending :
    LeavesPending D claimed [] (d.sweepExpiredSending principal now : Block platform (List String))
      fun _ => [] := by
  have hswept : ∀ messages : List (OutboxMessage platform),
      LeavesPending D claimed messages (mirrorSwept principal messages) fun _ => [] := by
    intro messages
    induction messages with
    | nil => exact .pure _
    | cons m rest ih => exact .bind (LeavesPending.mirrorIfScheduled free _ _) fun _ => ih
  refine .bind (.batch (c := .sweepExpiredSending principal (.ofInstant now) (unknownError now none)
    d.claimLimit (some REMINDER_NOTIFICATION_EVENT_TYPE)) rfl rfl) fun messages =>
    .bind (hswept messages) fun _ => ?_
  dsimp only
  split_ifs
  · exact .bind .commit fun _ => .pure _
  · exact .pure _

theorem leaves_mirrorClaimed (messages : List (OutboxMessage platform)) :
    LeavesPending D claimed messages (mirrorClaimed principal now messages) fun _ => [] := by
  induction messages with
  | nil => exact .pure _
  | cons m rest ih =>
    intro t a t' h hrun
    unfold mirrorClaimed at hrun
    obtain ⟨failed, v, hmirrored, hrun⟩ := Op.bind_eq_ok hrun
    rcases hmirror : mirror principal m t with ⟨e | b, w⟩
    · obtain ⟨hvalue, hcode⟩ := uncaught free h hmirror
      simp [Op.handle, Op.bind_apply, hmirror, hvalue, hcode] at hmirrored
    · have hstep := LeavesPending.mirror free principal m t b w h hmirror
      simp only [Op.handle, Op.bind_apply, hmirror, Op.pure_apply] at hmirrored
      cases hmirrored
      exact (ih.bind fun _ => .pure _) _ a t' hstep hrun

theorem leaves_confirmSending :
    LeavesPending D claimed [] (confirmSending principal message now) fun _ => [] := by
  refine .bind (.ofExcept _) fun token => .bind (.single (c := .markSending principal message.id token
    (.ofInstant now)) rfl rfl) fun _ => .bind (LeavesPending.mirror free _ _) fun _ => ?_
  exact .bind .commit fun _ => .pure _

theorem leaves_releaseBeforeIo :
    LeavesPending D claimed [] (releaseBeforeIo principal message now) fun _ => [] := by
  refine .bind (.ofExcept _) fun token => .bind (.ofExcept _) fun next => ?_
  exact .bind (.single (c := .release principal message.id token (some (.ofInstant next))) rfl rfl)
    fun _ => .bind (LeavesPending.mirror free _ _) fun _ => .commit

theorem leaves_recordUnknown :
    LeavesPending D claimed [] (recordUnknown principal message now) fun _ => [] := by
  refine .bind (.ofExcept _) fun token => .bind (.single (c := .markUncertain principal message.id token
    (unknownError now none)) rfl rfl) fun _ => .bind (LeavesPending.mirrorIfScheduled free _ _) fun _ => ?_
  exact .bind .commit fun _ => .pure _

theorem leaves_recordMalformed :
    LeavesPending D claimed [] (recordMalformed principal message now) fun _ => [] := by
  refine .bind (.ofExcept _) fun token => .bind (.single (c := .markClaimFailed principal message.id token
    (invalidPayloadError now)) rfl rfl) fun _ =>
    .bind (LeavesPending.mirrorIfScheduled free _ _) fun _ => ?_
  exact .bind .commit fun _ => .pure _

theorem leaves_recordResult {result : NotificationResult} :
    LeavesPending D claimed [] (recordResult principal message result now) fun _ => [] := by
  have houtcome : ∀ token, LeavesPending D claimed []
      (store (onOutbox (recordOutcome principal message result now token))) fun m => [m] := by
    intro token
    unfold recordOutcome
    cases result.outcome with
    | success => exact .single (c := .markPublished principal message.id token
        (some (.ofInstant now)) now) rfl rfl
    | knownTransient =>
      dsimp only
      split_ifs
      · exact .single (c := .markFailed principal message.id token (knownError result now)) rfl rfl
      · exact .single (c := .reschedule principal message.id token _ (knownError result now)) rfl rfl
    | permanent =>
      exact .single (c := .markFailed principal message.id token (knownError result now)) rfl rfl
    | unknownOutcome => exact .single (c := .markUncertain principal message.id token _) rfl rfl
  refine .bind (.ofExcept _) fun token => .bind (houtcome token) fun _ => ?_
  exact .bind (LeavesPending.mirrorIfScheduled free _ _) fun _ => .bind .commit fun _ => .pure _

theorem leaves_resolveUncertain {messageId resolution : String} :
    LeavesPending D claimed [] (@resolveUncertain platform principal messageId resolution now)
      fun _ => [] := by
  have hafter : ∀ m : OutboxMessage platform, LeavesPending D claimed [m] (do
      mirrorTerminal principal m
      commit
      return m) fun _ => [] := fun m =>
    .bind (LeavesPending.mirrorIfScheduled free _ _) fun _ => .bind .commit fun _ => .pure _
  refine .bind .list fun listed => .bind (.ofExcept _) fun _ => .bind (.ofExcept _) fun _ => ?_
  dsimp only
  split_ifs
  · exact .bind (.single (c := .resolveUncertainDelivered principal messageId _) rfl rfl) hafter
  · exact .bind (.single (c := .resolveUncertainRetry principal messageId _) rfl rfl) hafter
  · exact .bind (.raise _ fun m => [m]) hafter

end DispatchDueReminders

end PersonalAssistant
