import PersonalAssistant.Dispatch.InStep

/-!
# Reminders and their messages agree

The invariant of a transaction is an invariant of every run: each block of a dispatch mirrors what it
changed, and an approved run writes a reminder and its message together or neither.
-/
namespace PersonalAssistant

open Lib InMemoryOutbox InMemoryReminderTransaction ReminderStores ReminderIdempotencyIdentity

variable {platform : Platform} {α : Type} {D : Set ReminderIdempotencyIdentity} {claimed : Key → Prop}
  {u u' : ReminderStores platform} {principal : Principal}

/-! ## Transactions -/

theorem begin_of_ok {x : Block platform α} (hx : Forward x) (trusted : principal.trusted = true) {a : α}
    {t : InMemoryReminderTransaction platform} (h : x (enter u) = (.ok a, t)) :
    begin_ principal x u = (.ok a, if t.committed then t.stores else u) := by
  have honward := hx (enter u)
  rw [h] at honward
  obtain ⟨hsnapshot, hrolled⟩ : t.snapshot = u ∧ t.rolledBack = false := honward
  unfold begin_
  rw [requireTrustedPrincipal_of_trusted trusted, h]
  cases hc : t.committed <;> simp [exit, rolledBackState, hsnapshot, hrolled, hc]

/-- A block that mirrors what it changes. -/
theorem InStep.transact {x : Block platform α} (hx : Through (fun _ => True) x)
    (leaves : LeavesPending D claimed [] x fun _ => []) (h : InStep D claimed [] u) :
    InStep D claimed [] (begin_ principal x u).2 := by
  rcases hb : begin_ principal x u with ⟨r, u'⟩
  obtain ⟨e, -, rfl⟩ | ⟨a, t, -, hbody, -, rfl⟩ := begin_cases hx.forward hb
  · exact h
  · dsimp only
    split_ifs
    · exact leaves _ a t h hbody
    · exact h

/-! ## Approved runs -/

/-- A reminder and its message were created. -/
theorem InStep.create (free : CollisionFree platform D) (h : InStep D claimed [] u) {x : ReminderSlot D}
    {job : ScheduledReminder} {m : OutboxMessage platform}
    (scheduler : u'.scheduler.jobsByKey = u.scheduler.jobsByKey.set (notifyKey platform x) job)
    (outbox : u'.outbox.messagesByKey = u.outbox.messagesByKey.set (outboxKey platform x) m)
    (inv : Inv u'.outbox) (ids : MessageIds u'.outbox) (jobs : JobsValid platform u'.scheduler)
    (absent : u.outbox.messagesByKey.get? (outboxKey platform x) = none)
    (id : m.id = x.2.val.effectId platform .outboxMessage)
    (subject : m.event.subject = some (x.2.val.effectId platform .reminder))
    (reminder : job.reminderId = x.2.val.effectId platform .reminder)
    (agrees : AgreesWith (fun _ => False) job m) : InStep D claimed [] u' := by
  have hstored : u'.outbox.messagesByKey.get? (outboxKey platform x) = some m := by
    rw [outbox, Dict.get?_set_self]
  -- the reference of the new message was never handed out
  have hfresh : ¬ claimed m.reference := by
    intro hclaimed
    obtain ⟨k, m', hm', hreference⟩ := h.handed _ hclaimed
    obtain ⟨htenant, hid⟩ := Prod.mk.inj hreference
    obtain ⟨d, hd, hk, hid', -⟩ := h.messages k m' hm'
    obtain rfl := eq_of_effectId free hd x.2.2 (hid'.symm.trans (hid.trans id))
    have hkey : k = outboxKey platform x := Prod.ext
      ((h.inv k m' hm').tenant.symm.trans (htenant.trans (inv _ m hstored).tenant)) hk
    rw [hkey, absent] at hm'
    cases hm'
  refine ⟨inv, ids, jobs, fun k m' hm' => ?_, fun k job' hjob' => ?_, by simp, fun y hy => ?_,
    h.mirrored.create hstored (by rw [scheduler, Dict.get?_set_self])
      { agrees with nextAttemptAt := fun hclaimed => absurd hclaimed hfresh } (fun y hy => ?_)
      fun y hy => ?_⟩
  · rw [outbox, Dict.get?_set] at hm'
    split_ifs at hm' with hk
    · cases hm'
      exact ⟨x.2.val, x.2.2, by rw [hk]; rfl, id, subject⟩
    · exact h.messages k m' hm'
  · rw [scheduler, Dict.get?_set] at hjob'
    split_ifs at hjob' with hk
    · cases hjob'
      exact ⟨x.2.val, x.2.2, by rw [hk]; rfl, reminder⟩
    · exact h.reminders k job' hjob'
  · obtain ⟨k, m', hm', hreference⟩ := h.handed y hy
    refine ⟨k, m', ?_, hreference⟩
    rw [outbox, Dict.get?_set_of_ne]
    · exact hm'
    · rintro rfl
      cases absent.symm.trans hm'
  · rw [outbox, Dict.get?_set_of_ne _ _ fun heq => hy (outboxKey_injective free heq)]
  · rw [scheduler, Dict.get?_set_of_ne _ _ fun heq => hy (notifyKey_injective free heq)]

namespace ApprovedRun

variable {run : ApprovedRun platform} {env : Surroundings}

/-- An approved run keeps the invariant. -/
theorem inStep_of_outcome (free : CollisionFree platform D) (proper : run.Proper D)
    (h : InStep D claimed [] u) {r : Except PyError BlockResult}
    (out : run.Outcome env principal u r u') : InStep D claimed [] u' := by
  cases out with
  | aborted e => exact h
  | replayed => exact h.congr rfl rfl
  | clarified => exact h.congr rfl rfl
  | @created registration stored extraction request event reminder body created appended requested
      message calendar scheduler eventStore outbox states states' register fresh dated request_eq
      createEvent schedule created_eq append requested_eq add upsert =>
    let x : ReminderSlot D := (principal.tenantId, ⟨run.idempotency.identity, proper.identity⟩)
    have hrun : (OutboxCall.add principal requested (run.key ++ ":outbox")
        (some (.ofInstant reminder.notifyAt)) (some run.ids.outboxMessageId) env.fresh env.storedAt).run
        u.outbox = (.ok [message], outbox) := OutboxCall.single_eq_ok.mpr ⟨message, add, rfl⟩
    have hinv := (OutboxCall.stepSpec _ u.outbox _ _ h.inv hrun).1
    have hids := OutboxCall.messageIds_run (.add principal requested (run.key ++ ":outbox")
      (some (.ofInstant reminder.notifyAt)) (some run.ids.outboxMessageId) env.fresh env.storedAt)
      h.inv h.ids
    rw [hrun] at hids
    have hevent := CloudEvent.create_eq_ok requested_eq
    obtain ⟨e, he, -⟩ | ⟨notifyAt, job, -, -, hjob, ⟨_, hold, -, -, rfl⟩ |
        ⟨absent, -, hr, rfl⟩⟩ := ReminderScheduler.scheduleBeforeEvent_cases schedule
    · cases he
    · -- the reminder was there, so its message was
      obtain ⟨m, hm⟩ := h.mirrored.exists_primary (k := x) hold
      obtain ⟨e, he, -⟩ | ⟨next, -, -, -, ⟨_, -, -, -, rfl⟩ | ⟨_, hnone, -⟩⟩ :=
        InMemoryOutbox.add_cases add
      · cases he
      · exact h.congr rfl rfl
      · cases hnone.symm.trans hm
    · obtain ⟨e, he, -⟩ | ⟨next, -, -, -, ⟨m, hm, -⟩ | ⟨m, hnone, hm, -, -, hr', rfl⟩⟩ :=
        InMemoryOutbox.add_cases add
      · cases he
      · -- the message was there, so its reminder was
        obtain ⟨job', hold⟩ := h.mirrored.exists_mirror (k := x) hm
        cases absent.symm.trans hold
      · cases hr
        cases hr'
        obtain ⟨hvalid, rfl⟩ := ScheduledReminder.modelValidate_eq_ok hjob
        have hmessage := (OutboxMessage.modelValidate_eq_ok hm).1
        rw [Option.getD_some, newMessage_trimmed] at hmessage
        subst hmessage
        refine h.create (x := x) free rfl rfl hinv hids
          (h.jobs.setJob ⟨hvalid.timezone, hvalid.sourceEventId, hvalid.payloadFingerprint⟩) hnone rfl
          ?_ rfl ⟨rfl, rfl, rfl, rfl, rfl, by simp [newMessage, ReminderScheduler.newJob], False.elim⟩
        show requested.subject = _
        rw [hevent]
        exact congrArg some (trimmed_effectId _ _)

/-- The transactions of approved runs. -/
def Admits (D : Set ReminderIdempotencyIdentity) (x : Block platform Unit) : Prop :=
  ∃ (run : ApprovedRun platform) (env : Surroundings) (principal : Principal), run.Proper D ∧
    x = discard (run.block env principal)

theorem writesOnly_of_admits {x : Block platform Unit} (h : Admits D x) : DispatchPool.WritesOnly x := by
  obtain ⟨run, env, p, -, rfl⟩ := h
  exact through_block.bind fun _ => .pure _

/-- A registered block was run by somebody who is trusted. -/
theorem trusted_of_block {result : BlockResult} {t t' : InMemoryReminderTransaction platform}
    (h : run.block env principal t = (.ok result, t')) : principal.trusted = true := by
  obtain ⟨registration, _, hregister, -⟩ := Op.bind_eq_ok h
  obtain ⟨states, register, -⟩ := attempt_store_eq_ok hregister
  obtain ⟨e, he, -⟩ | ⟨trusted, -⟩ := InMemoryWorkflowStateStore.registerOrReplay_cases register
  · cases he
  · exact trusted

theorem inStep_of_admits (free : CollisionFree platform D) {x : Block platform Unit} (hx : Admits D x)
    (h : InStep D claimed [] u) : InStep D claimed [] (begin_ principal x u).2 := by
  have hforward := (writesOnly_of_admits hx).forward
  obtain ⟨run, env, p, proper, rfl⟩ := hx
  rcases hb : begin_ principal (discard (run.block env p)) u with ⟨r, u'⟩
  obtain ⟨e, -, rfl⟩ | ⟨_, t, -, hbody, -, rfl⟩ := begin_cases hforward hb
  · exact h
  · obtain ⟨result, v, hblock, hret⟩ := Op.bind_eq_ok hbody
    cases hret
    have hrun : begin_ p (run.block env p) u = (.ok result, if t.committed then t.stores else u) :=
      begin_of_ok forward_block (trusted_of_block hblock) hblock
    exact inStep_of_outcome free proper h (outcome_of_begin hrun)

end ApprovedRun

/-! ## Runs -/

namespace DispatchState

/-- Some worker was handed the message of this reference. -/
def HandedOut (c : DispatchState platform) (x : Key) : Prop := ∃ g ∈ c.claimed, g.message.reference = x

open DispatchDueReminders LeavesPending

theorem inStep_afterClaim (free : CollisionFree platform D) {c : DispatchState platform}
    (h : InStep D c.HandedOut [] c.stores) (d : DispatchDueReminders) (now : Instant)
    (tokens : Key → Uuid) : InStep D (c.afterClaim d principal now tokens).HandedOut []
      (c.afterClaim d principal now tokens).stores := by
  have hforward := (@through_claim platform (fun _ => True) (fun _ _ _ => trivial) d principal now
    tokens trivial fun _ _ => trivial).forward
  unfold afterClaim
  rcases hb : begin_ principal (d.claim principal now tokens) c.stores with ⟨r, u'⟩
  obtain ⟨e, rfl, rfl⟩ | ⟨⟨dispatchable, prefailed⟩, t, -, hbody, rfl, rfl⟩ := begin_cases hforward hb
  · exact h
  · obtain ⟨messages, v, hclaim, hbody⟩ := Op.bind_eq_ok hbody
    have hpending := LeavesPending.batch (c := .claimDue principal (.ofInstant now) d.claimLimit
      d.owner d.leaseSeconds (some REMINDER_NOTIFICATION_EVENT_TYPE) tokens) rfl rfl _ _ _ h hclaim
    obtain ⟨handed, w, hmirror, hbody⟩ := Op.bind_eq_ok hbody
    have hmirrored := leaves_mirrorClaimed free messages _ _ _ hpending.hand hmirror
    obtain ⟨_, y, hcommit, hbody⟩ := Op.bind_eq_ok hbody
    cases hbody
    cases commit_eq_ok hcommit
    refine hmirrored.mono ?_
    rintro x ⟨g, hg, rfl⟩
    obtain hg | hg := List.mem_append.mp hg
    · exact .inl ⟨g, hg, rfl⟩
    · obtain ⟨m, hm, rfl⟩ := List.mem_map.mp hg
      exact .inr ⟨m, mem_of_mirrorClaimed hmirror m hm, rfl⟩

theorem inStep_afterConfirm (free : CollisionFree platform D) {c : DispatchState platform}
    (h : InStep D c.HandedOut [] c.stores) (g : ClaimedMessage platform) (now : Instant) :
    InStep D (c.afterConfirm g now).HandedOut [] (c.afterConfirm g now).stores := by
  have hstores : InStep D c.HandedOut []
      (begin_ g.principal (confirmSending g.principal g.message now) c.stores).2 :=
    h.transact (through_confirmSending (fun _ _ _ => trivial) fun _ _ => trivial)
      (leaves_confirmSending free)
  unfold afterConfirm
  split
  · next message s hb => rwa [hb] at hstores
  · next e s hb => rwa [hb] at hstores

end DispatchState

namespace DispatchPool

variable {Worker : Type} [DecidableEq Worker] {c c' : DispatchPool platform Worker}
  {config : Worker → DispatchDueReminders}

open DispatchDueReminders

/-- Every step keeps the invariant. -/
theorem Step.inStep (free : CollisionFree platform D)
    (step : Step c config (ApprovedRun.Admits D) c') (h : InStep D c.state.HandedOut [] c.state.stores) :
    InStep D c'.state.HandedOut [] c'.state.stores := by
  cases step with
  | sweep idle principal now =>
    rw [advance_state]
    exact h.transact (through_sweepExpiredSending (fun _ _ _ => trivial) trivial) (leaves_sweepExpiredSending free)
  | claim swept tokens fresh =>
    rw [advance_state]
    exact DispatchState.inStep_afterClaim free h _ _ _
  | release looping =>
    rw [advance_state]
    exact h.transact (through_releaseBeforeIo (fun _ _ _ => trivial) fun _ _ _ _ => trivial)
      (leaves_releaseBeforeIo free)
  | malformed looping approval clock approved refused caught now' =>
    rw [advance_state]
    exact h.transact (through_recordMalformed (fun _ _ _ => trivial) fun _ => trivial)
      (leaves_recordMalformed free)
  | confirm looping approval clock approved built now' =>
    rw [advance_state]
    exact DispatchState.inStep_afterConfirm free h _ _
  | unknown answered now' =>
    rw [advance_state]
    exact h.transact (through_recordUnknown (fun _ _ _ => trivial) fun _ => trivial) (leaves_recordUnknown free)
  | record answered now' =>
    rw [advance_state]
    exact h.transact (through_recordResult (fun _ _ _ => trivial) fun _ _ => trivial) (leaves_recordResult free)
  | resolve principal messageId resolution now =>
    exact h.transact (through_resolveUncertain (fun _ _ _ => trivial) fun _ _ => trivial)
      (leaves_resolveUncertain free)
  | write principal admitted => exact ApprovedRun.inStep_of_admits free admitted h
  | elsewhere states => exact h.congr rfl rfl
  | finish => exact h
  | send => exact h
  | crash => exact h

theorem Reachable.inStep (free : CollisionFree platform D)
    (h : Reachable config (ApprovedRun.Admits D) c) : InStep D c.state.HandedOut [] c.state.stores := by
  induction h with
  | start => exact (InStep.empty D).mono (by rintro x ⟨g, hg, -⟩; cases hg)
  | step _ step ih => exact step.inStep free ih

/-- In every run of dispatch workers, operators and approved runs, every stored message has the reminder
it names and every reminder its message, and their delivery fields agree whenever no transaction is
under way. -/
theorem reminders_agree (free : CollisionFree platform D)
    (h : Reachable config (ApprovedRun.Admits D) c) :
    (∀ k m, c.state.stores.outbox.messagesByKey.get? k = some m →
      ∃ j job, c.state.stores.scheduler.jobsByKey.get? j = some job ∧ j.1 = k.1 ∧
        m.event.subject = some job.reminderId) ∧
    (∀ j job, c.state.stores.scheduler.jobsByKey.get? j = some job →
      ∃ k m, c.state.stores.outbox.messagesByKey.get? k = some m ∧ k.1 = j.1 ∧
        m.event.subject = some job.reminderId) ∧
    ∀ k m j job, c.state.stores.outbox.messagesByKey.get? k = some m →
      c.state.stores.scheduler.jobsByKey.get? j = some job → j.1 = k.1 →
      m.event.subject = some job.reminderId → AgreesWith c.state.HandedOut job m := by
  have hstep := h.inStep free
  refine ⟨fun k m hm => ?_, fun j job hjob => ?_, fun k m j job hm hjob htenant hsubject => ?_⟩
  · obtain ⟨x, rfl, hsubject, -⟩ := hstep.exists_slot hm
    obtain ⟨job, hjob⟩ := hstep.mirrored.exists_mirror (k := x) hm
    exact ⟨_, job, hjob, rfl, hsubject.trans (congrArg some (hstep.reminderId_eq free hjob).symm)⟩
  · obtain ⟨x, rfl, hid⟩ := hstep.exists_reminder_slot hjob
    obtain ⟨m, hm⟩ := hstep.mirrored.exists_primary (k := x) hjob
    exact ⟨_, m, hm, rfl, (hstep.subject_eq free hm).trans (congrArg some hid.symm)⟩
  · obtain ⟨x, rfl, hx, -⟩ := hstep.exists_slot hm
    obtain ⟨y, rfl, hid⟩ := hstep.exists_reminder_slot hjob
    have hslot : y = x := by
      have hids : y.2.1.effectId platform .reminder = x.2.1.effectId platform .reminder :=
        hid.symm.trans (Option.some.inj (hsubject.symm.trans hx))
      exact Prod.ext htenant (Subtype.ext (eq_of_effectId free y.2.2 x.2.2 hids))
    subst hslot
    exact (hstep.mirrored.agree y m job hm hjob).resolve_right List.not_mem_nil

end DispatchPool

/-! ### A claimed reminder -/

namespace AgreementSample

open DispatchPool

def identities : Set ReminderIdempotencyIdentity := {.sample "event-1", .sample "event-2"}

def idempotency : ReminderIdempotency := ⟨.sample "event-1", .sample "Call home"⟩

/-- The start of 2025. -/
def startsAt : Instant := ⟨63871286400000000, by decide⟩

/-- A run that was approved and found its reminder. -/
def run : ApprovedRun reminderPlatform where
  workflow := .sample false (.unsupported .notAReminder)
  request := .sample .callHome ⟨0, Nat.zero_le _⟩ (some {
    approvalId := "approval-1", tenantId := "tenant-1", principalId := "user-1"
    action := "calendar.create_event", resource := idempotency.key reminderPlatform ++ ":calendar"
    tier := .P3, approved := true, expiresAt := none, requestHash := none, trusted := true })
  idempotency := idempotency
  initialState := {
    workflowId := "wf_1", tenantId := "tenant-1", workflowType := "reminder", status := .running
    step := ReminderWorkflowStep.classify, idempotencyKey := idempotency.key reminderPlatform
    payloadFingerprint := some (idempotency.payloadFingerprint reminderPlatform)
    data := [], createdAt := ⟨0, Nat.zero_le _⟩, updatedAt := ⟨0, Nat.zero_le _⟩ }
  extraction := some {
    title := .callHome, timezone := .utc, isZone := by decide, startsAt := startsAt, notifyAt := none
    confidence := ⟨Confidence.sample.val, by decide⟩ }
  clarification := none
  baseTraceIds := []
  llmTraceId := none

def creation : Block reminderPlatform Unit := discard (run.block (.sample .zero) .sample)

theorem admits_creation : ApprovedRun.Admits identities creation :=
  ⟨run, .sample .zero, .sample, ⟨.inl rfl, rfl, rfl⟩, rfl⟩

/-- The reminder is created and its message is claimed when it is due. -/
def pool : DispatchPool reminderPlatform Bool :=
  play TakeoverSample.config ⟨DispatchState.after ⟨.empty, [], []⟩ .sample creation, fun _ => .idle, []⟩
    [.sweep true .sample startsAt, .claim true TakeoverSample.firstToken]

theorem reachable : Reachable TakeoverSample.config (ApprovedRun.Admits identities) pool :=
  (Reachable.start.step (.write .sample admits_creation)).play _

end AgreementSample

open AgreementSample in
/-- The claimed message has its reminder, and their delivery fields agree. -/
theorem reminders_agree_claimed : ∃ k m j job, pool.state.stores.outbox.messagesByKey.get? k = some m ∧
    m.dispatchStatus = .claimed ∧ pool.state.stores.scheduler.jobsByKey.get? j = some job ∧ j.1 = k.1 ∧
    m.event.subject = some job.reminderId ∧ AgreesWith pool.state.HandedOut job m := by
  have hclaimed : (pool.state.stores.outbox.messagesByKey.get?
      ("tenant-1", idempotency.key reminderPlatform ++ ":outbox")).map OutboxMessage.dispatchStatus =
        some .claimed := by
    decide +kernel
  obtain ⟨m, hm, hstatus⟩ := Option.map_eq_some_iff.mp hclaimed
  obtain ⟨hjobs, -, hagree⟩ := DispatchPool.reminders_agree collisionFree_sample reachable
  obtain ⟨j, job, hjob, htenant, hsubject⟩ := hjobs _ m hm
  exact ⟨_, m, j, job, hm, hstatus, hjob, htenant, hsubject, hagree _ m j job hm hjob htenant hsubject⟩

end PersonalAssistant
