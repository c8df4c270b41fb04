import PersonalAssistant.Dispatch.Transactions
import PersonalAssistant.Reminders.Transaction

/-!
# Workers over shared stores

A configuration is the stores together with what their transactions have handed to workers: claimed
messages, with the `now` of the dispatch that claimed them, and confirmed sends. A worker may act on
what it was handed at any later moment, or never, when it has crashed. Operators and workflow runs use
the same stores.
-/
namespace PersonalAssistant

open Lib InMemoryOutbox InMemoryReminderTransaction ReminderStores Relation

variable {platform : Platform} {α : Type}

/-! ## The calls of each block -/

section Calls

variable {ok : StoreCall platform → Prop}

theorem snd_discard {σ : Type} (x : Op σ PyError α) (s : σ) : (discard x s).2 = (x s).2 :=
  Op.bind_pure_snd x (fun _ => ()) s

/-- A method of the outbox that returns one message. -/
theorem through_single {x : InMemoryOutbox.Method platform (OutboxMessage platform)}
    {c : OutboxCall platform} (hc : c.run = OutboxCall.single x) (h : ok (.outbox c)) :
    Through ok (store (onOutbox x)) := by
  refine .store h fun s => ?_
  simp only [StoreCall.run, snd_discard, onOutbox, Op.zoom_apply, hc, OutboxCall.single]
  rw [Op.bind_pure_snd x (fun m => [m])]

theorem through_batch {x : InMemoryOutbox.Method platform (List (OutboxMessage platform))}
    {c : OutboxCall platform} (hc : c.run = x) (h : ok (.outbox c)) :
    Through ok (store (onOutbox x)) := by
  refine .store h fun s => ?_
  simp only [StoreCall.run, snd_discard, hc]

variable (hmirror : ∀ p id m, ok (.mirrorDelivery p id m))
include hmirror

theorem through_mirrorDelivery (principal : Principal) (subject : String)
    (message : OutboxMessage platform) : Through ok
      (store (onScheduler (ReminderScheduler.mirrorDelivery principal subject message))) := by
  refine .store (hmirror principal subject message) fun s => ?_
  simp only [StoreCall.run, snd_discard]

theorem through_mirror (principal : Principal) (message : OutboxMessage platform) :
    Through ok (mirror principal message) := by
  unfold mirror
  cases subjectOf message with
  | none => exact .raise _
  | some subject => exact .bind (through_mirrorDelivery hmirror _ _ _) fun _ => .pure _

theorem through_mirrorIfScheduled (principal : Principal) (message : OutboxMessage platform) :
    Through ok (mirrorIfScheduled principal message) := by
  unfold mirrorIfScheduled
  cases subjectOf message with
  | none => exact .pure _
  | some subject =>
    refine .handle (.bind (through_mirrorDelivery hmirror _ _ _) fun _ => .pure _) fun e => ?_
    split_ifs
    · exact .pure _
    · exact .raise _

namespace DispatchDueReminders

variable {d : DispatchDueReminders} {principal : Principal} {now : Instant}
  {message : OutboxMessage platform}

theorem through_sweepExpiredSending (hsweep : ok (.outbox (.sweepExpiredSending principal
      (.ofInstant now) (unknownError now none) d.claimLimit (some REMINDER_NOTIFICATION_EVENT_TYPE)))) :
    Through ok (d.sweepExpiredSending principal now) := by
  have hswept : ∀ messages : List (OutboxMessage platform),
      Through ok (mirrorSwept principal messages) := by
    intro messages
    induction messages with
    | nil => exact .pure _
    | cons m rest ih => exact .bind (through_mirrorIfScheduled hmirror _ _) fun _ => ih
  refine .bind (through_batch rfl hsweep) fun messages => .bind (hswept messages) fun _ => ?_
  dsimp only
  split_ifs
  · exact .bind .commit fun _ => .pure _
  · exact .pure _

theorem through_failClaimed (hfail : ∀ token, ok (.outbox (.markClaimFailed principal message.id token
      (invalidPayloadError now)))) : Through ok (failClaimed principal now message) := by
  refine .bind (.ofExcept _) fun token => .bind (through_single rfl (hfail token)) fun _ => ?_
  exact .bind (through_mirrorIfScheduled hmirror _ _) fun _ => .pure _

theorem through_mirrorClaimed (hfail : ∀ id token, ok (.outbox (.markClaimFailed principal id token
      (invalidPayloadError now)))) (messages : List (OutboxMessage platform)) :
    Through ok (mirrorClaimed principal now messages) := by
  induction messages with
  | nil => exact .pure _
  | cons m rest ih =>
    refine .bind (.handle (.bind (through_mirror hmirror _ _) fun _ => .pure _) fun e => ?_)
      fun failed => .bind ih fun claimed => ?_
    · split_ifs
      · exact .bind (through_failClaimed hmirror (hfail m.id)) fun _ => .pure _
      · exact .raise _
    · cases failed with
      | none => exact .pure _
      | some failed => exact .pure _

theorem through_claim {tokens : Key → Uuid} (hclaim : ok (.outbox (.claimDue principal
      (.ofInstant now) d.claimLimit d.owner d.leaseSeconds (some REMINDER_NOTIFICATION_EVENT_TYPE)
      tokens)))
    (hfail : ∀ id token, ok (.outbox (.markClaimFailed principal id token (invalidPayloadError now)))) :
    Through ok (d.claim principal now tokens) := by
  refine .bind (through_batch rfl hclaim) fun messages => ?_
  exact .bind (through_mirrorClaimed hmirror hfail messages) fun _ => .bind .commit fun _ => .pure _

theorem through_confirmSending (hsend : ∀ token, message.claimToken = some token →
      ok (.outbox (.markSending principal message.id token (.ofInstant now)))) :
    Through ok (confirmSending principal message now) := by
  refine .check fun token htoken => ?_
  refine .bind (through_single rfl (hsend token (claimTokenOf_eq_ok.mp htoken).1)) fun _ => ?_
  exact .bind (through_mirror hmirror _ _) fun _ => .bind .commit fun _ => .pure _

theorem through_releaseBeforeIo (hrelease : ∀ token next, message.claimToken = some token →
      now.addSeconds 30 = .ok next →
      ok (.outbox (.release principal message.id token (some (.ofInstant next))))) :
    Through ok (releaseBeforeIo principal message now) := by
  refine .check fun token htoken => .check fun next hnext => ?_
  refine .bind (through_single rfl (hrelease token next (claimTokenOf_eq_ok.mp htoken).1 hnext))
    fun _ => ?_
  exact .bind (through_mirror hmirror _ _) fun _ => .commit

theorem through_recordUnknown (hmark : ∀ token, ok (.outbox (.markUncertain principal message.id token
      (unknownError now none)))) : Through ok (recordUnknown principal message now) := by
  refine .bind (.ofExcept _) fun token => .bind (through_single rfl (hmark token)) fun _ => ?_
  exact .bind (through_mirrorIfScheduled hmirror _ _) fun _ => .bind .commit fun _ => .pure _

theorem through_recordMalformed (hmark : ∀ token, ok (.outbox (.markClaimFailed principal message.id
      token (invalidPayloadError now)))) : Through ok (recordMalformed principal message now) := by
  refine .bind (.ofExcept _) fun token => .bind (through_single rfl (hmark token)) fun _ => ?_
  exact .bind (through_mirrorIfScheduled hmirror _ _) fun _ => .bind .commit fun _ => .pure _

/-- The calls that end a send. -/
def EndsSend : StoreCall platform → Prop
  | .outbox (.markPublished ..) | .outbox (.markFailed ..) | .outbox (.markUncertain ..)
  | .outbox (.reschedule ..) => True
  | _ => False

theorem through_recordResult {result : NotificationResult} (hend : ∀ c, EndsSend c → ok c) :
    Through ok (recordResult principal message result now) := by
  have houtcome : ∀ token, Through ok
      (store (onOutbox (recordOutcome principal message result now token))) := by
    intro token
    unfold recordOutcome
    cases result.outcome with
    | success =>
      exact through_single (c := .markPublished principal message.id token (some (.ofInstant now)) now)
        rfl (hend _ trivial)
    | knownTransient =>
      dsimp only
      split_ifs
      · exact through_single (c := .markFailed principal message.id token (knownError result now)) rfl
          (hend _ trivial)
      · exact through_single (c := .reschedule principal message.id token _ (knownError result now)) rfl
          (hend _ trivial)
    | permanent =>
      exact through_single (c := .markFailed principal message.id token (knownError result now)) rfl
        (hend _ trivial)
    | unknownOutcome =>
      exact through_single (c := .markUncertain principal message.id token _) rfl (hend _ trivial)
  refine .bind (.ofExcept _) fun token => .bind (houtcome token) fun _ => ?_
  exact .bind (through_mirrorIfScheduled hmirror _ _) fun _ => .bind .commit fun _ => .pure _

/-- The calls of an operator. -/
def Resolves : StoreCall platform → Prop
  | .outbox (.resolveUncertainDelivered ..) | .outbox (.resolveUncertainRetry ..) | .list _ => True
  | _ => False

theorem through_resolveUncertain {messageId resolution : String} (hresolve : ∀ c, Resolves c → ok c) :
    Through ok (@resolveUncertain platform principal messageId resolution now) := by
  have hlist : Through ok (store (onOutbox (@listForTenant platform principal))) := by
    refine .store (c := .list principal) (hresolve _ trivial) fun s => ?_
    simp only [onOutbox, Op.zoom_apply, StoreCall.run, Op.ofExcept_apply]
    unfold listForTenant
    cases requireTrustedPrincipal principal <;> rfl
  have hafter : ∀ m : OutboxMessage platform, Through ok (do
      mirrorTerminal principal m
      commit
      return m) := fun m =>
    .bind (through_mirrorIfScheduled hmirror _ _) fun _ => .bind .commit fun _ => .pure _
  refine .bind hlist fun listed => .bind (.ofExcept _) fun _ => .bind (.ofExcept _) fun _ => ?_
  dsimp only
  split_ifs
  · exact .bind (through_single (c := .resolveUncertainDelivered principal messageId _) rfl
      (hresolve _ trivial)) hafter
  · exact .bind (through_single (c := .resolveUncertainRetry principal messageId _) rfl
      (hresolve _ trivial)) hafter
  · exact .bind (.raise _) hafter

end DispatchDueReminders

end Calls

namespace ApprovedRun

/-- The calls of a workflow run. -/
def Writes : StoreCall platform → Prop
  | .createEvent .. | .scheduleBeforeEvent .. | .append .. | .registerOrReplay .. | .upsert ..
  | .outbox (.add ..) => True
  | _ => False

theorem through_attempt {ok : StoreCall platform → Prop} {env : Surroundings} {op : StoreOperation}
    {x : Block platform α} (hx : Through ok x) : Through ok (attempt env op x) := by
  unfold attempt
  cases env.faults op with
  | some name => exact .raise _
  | none => exact hx

variable {run : ApprovedRun platform} {env : Surroundings} {principal : Principal}

/-- A method behind the call it is. -/
theorem through_write {σ : Type} {proj : ReminderStores platform → σ}
    {put : ReminderStores platform → σ → ReminderStores platform} {x : Op σ PyError α}
    {c : StoreCall platform} (hc : c.run = discard (.zoom proj put x)) (h : Writes c) :
    Through Writes (store (.zoom proj put x)) := by
  refine .store h fun s => ?_
  rw [hc, snd_discard]

theorem through_createEffects (state : WorkflowState) (extraction : ReminderExtraction platform) :
    Through Writes (run.createEffects env principal state extraction) := by
  refine .bind (.ofExcept _) fun request => .bind (through_attempt (through_write
    (c := .createEvent principal request run.request.approval env.fresh env.approvedAt) rfl trivial))
    fun event => .bind (.ofExcept _) fun text => .bind (.ofExcept _) fun body => ?_
  refine .bind (through_attempt (through_write
    (c := .scheduleBeforeEvent principal (run.scheduleRequest extraction event.eventId body) env.fresh)
    rfl trivial)) fun reminder => .bind (.ofExcept _) fun created => ?_
  refine .bind (through_attempt (through_write (c := .append principal created) rfl trivial))
    fun _ => .bind (.ofExcept _) fun requested => ?_
  refine .bind (through_attempt (through_single (c := .add principal requested (run.key ++ ":outbox")
    (some (.ofInstant reminder.notifyAt)) (some run.ids.outboxMessageId) env.fresh env.storedAt) rfl
    trivial)) fun _ => ?_
  refine .bind (through_attempt (through_write (c := .upsert principal _) rfl trivial)) fun _ => ?_
  exact .bind (through_attempt .commit) fun _ => .pure _

theorem through_clarify (state : WorkflowState) : Through Writes (run.clarify env principal state) := by
  refine .bind (.ofExcept _) fun text => .bind (.ofExcept _) fun reply => ?_
  refine .bind (through_attempt (through_write (c := .upsert principal _) rfl trivial)) fun _ => ?_
  exact .bind (through_attempt .commit) fun _ => .bind (.ofExcept _) fun _ => .pure _

theorem through_block : Through Writes (run.block env principal) := by
  refine .bind (through_attempt (through_write (c := .registerOrReplay principal run.initialState
    (some ReminderWorkflowStep.approvalRequired) env.registeredAt) rfl trivial))
    fun registration => .bind (.ofExcept _) fun replay => ?_
  cases replay with
  | some result => exact .bind (through_attempt .commit) fun _ => .pure _
  | none =>
    cases hx : run.extraction with
    | none => simpa only [hx] using through_clarify _
    | some extraction => simpa only [hx] using through_createEffects _ _

end ApprovedRun

/-! ## Paths of calls -/

/-- What a transaction may do to the stores: an allowed call, or a write of workflow states. -/
def StoreStep (ok : StoreCall platform → Prop) (s s' : ReminderStores platform) : Prop :=
  (∃ c, ok c ∧ s' = (c.run s).2) ∨ ∃ states, s' = { s with states := states }

abbrev StorePath (ok : StoreCall platform → Prop) := ReflTransGen (@StoreStep platform ok)

theorem StorePath.of_through {ok : StoreCall platform → Prop} {x : Block platform α}
    (hx : Through ok x) (principal : Principal) (s : ReminderStores platform) :
    StorePath ok s (begin_ principal x s).2 :=
  hx.begin_ (P := StorePath ok s) (fun c _ hc path => path.tail (.inl ⟨c, hc, rfl⟩)) .refl

/-! ## Configurations -/

/-- A claimed message, with the `now` of the dispatch it was claimed in. -/
structure ClaimedMessage (platform : Platform) where
  principal : Principal
  message : OutboxMessage platform
  now : Instant

/-- A confirmed send. -/
structure SendingMessage (platform : Platform) where
  principal : Principal
  message : OutboxMessage platform

structure DispatchState (platform : Platform) where
  stores : ReminderStores platform
  claimed : List (ClaimedMessage platform)
  sending : List (SendingMessage platform)

/-- The text of a claim token. -/
def tokenText (u : Uuid) : String := "claim_" ++ u.hex

namespace DispatchState

variable (c : DispatchState platform)

/-- `uuid4` draws no token for two messages, and none that is stored or that a worker was handed. -/
structure Fresh (tokens : Key → Uuid) : Prop where
  distinct : ∀ j k, c.stores.outbox.messagesByKey.get? j ≠ none →
    c.stores.outbox.messagesByKey.get? k ≠ none → tokens j = tokens k → j = k
  unstored : ∀ k j m, c.stores.outbox.messagesByKey.get? j = some m →
    m.claimToken ≠ some (tokenText (tokens k))
  unused : ∀ k, ∀ h ∈ c.claimed, h.message.claimToken ≠ some (tokenText (tokens k))

/-- Run a transaction that hands nothing to its worker. -/
def after (principal : Principal) (x : Block platform α) : DispatchState platform :=
  { c with stores := (begin_ principal x c.stores).2 }

def afterClaim (d : DispatchDueReminders) (principal : Principal) (now : Instant)
    (tokens : Key → Uuid) : DispatchState platform :=
  match begin_ principal (d.claim principal now tokens) c.stores with
  | (.ok (dispatchable, _), s) =>
    { c with stores := s, claimed := c.claimed ++ dispatchable.map (⟨principal, ·, now⟩) }
  | (.error _, s) => { c with stores := s }

def afterConfirm (h : ClaimedMessage platform) (now : Instant) : DispatchState platform :=
  match begin_ h.principal (DispatchDueReminders.confirmSending h.principal h.message now) c.stores with
  | (.ok message, s) => { c with stores := s, sending := c.sending ++ [⟨h.principal, message⟩] }
  | (.error _, s) => { c with stores := s }

open DispatchDueReminders in
/-- One transaction of a worker, an operator or a workflow run. -/
inductive Step (c : DispatchState platform) : DispatchState platform → Prop where
  | sweep (d : DispatchDueReminders) (principal : Principal) (now : Instant) :
      Step c (c.after principal (d.sweepExpiredSending principal now))
  | claim (d : DispatchDueReminders) (principal : Principal) (now : Instant) (tokens : Key → Uuid)
      (fresh : c.Fresh tokens) : Step c (c.afterClaim d principal now tokens)
  | release (h : ClaimedMessage platform) (held : h ∈ c.claimed) :
      Step c (c.after h.principal (releaseBeforeIo h.principal h.message h.now))
  | malformed (h : ClaimedMessage platform) (held : h ∈ c.claimed) (now : Instant) :
      Step c (c.after h.principal (recordMalformed h.principal h.message now))
  | confirm (h : ClaimedMessage platform) (held : h ∈ c.claimed) (now : Instant) :
      Step c (c.afterConfirm h now)
  | unknown (h : SendingMessage platform) (held : h ∈ c.sending) (now : Instant) :
      Step c (c.after h.principal (recordUnknown h.principal h.message now))
  | record (h : SendingMessage platform) (held : h ∈ c.sending) (result : NotificationResult)
      (now : Instant) : Step c (c.after h.principal (recordResult h.principal h.message result now))
  | resolve (principal : Principal) (messageId resolution : String) (now : Instant) :
      Step c (c.after principal (@resolveUncertain platform principal messageId resolution now))
  | request (run : ApprovedRun platform) (env : Surroundings) (principal : Principal) :
      Step c (c.after principal (run.block env principal))
  | elsewhere (states : InMemoryWorkflowStateStore) :
      Step c { c with stores := { c.stores with states := states } }

end DispatchState

end PersonalAssistant
