import PersonalAssistant.Dispatch.Claims

/-!
# Bounded attempts

A message that waits or is claimed has fewer attempts than the limit, and no message has more. One that
was sent once had a well-formed payload and a scheduled reminder, both for good; so a claim fails only
messages that were never sent, and failing them never meets the checks on a failed message.
-/
namespace PersonalAssistant

open Lib InMemoryOutbox InMemoryReminderTransaction ReminderStores Relation

variable {platform : Platform} {s s' : InMemoryOutbox platform} {k : Key} {m m' : OutboxMessage platform}
  {principal : Principal}

/-! ## The limit -/

/-- At most the limit, and below it while the message can still be sent. -/
def Bounded (s : InMemoryOutbox platform) : Prop :=
  ∀ k m, s.messagesByKey.get? k = some m →
    m.attempts ≤ MAX_DELIVERY_ATTEMPTS ∧ (m.Open → m.attempts < MAX_DELIVERY_ATTEMPTS)

theorem Bounded.calm (h : Bounded s) (calm : Calm s s') : Bounded s' := by
  intro k m' hm'
  cases hm : s.messagesByKey.get? k with
  | some m =>
    obtain ⟨n, hn, honwards⟩ := calm.kept k m hm
    cases hn.symm.trans hm'
    rw [honwards.attempts]
    exact ⟨(h k m hm).1, fun ho => (h k m hm).2 (honwards.opened ho)⟩
  | none =>
    rw [calm.added k m' hm' hm]
    exact ⟨Nat.zero_le _, fun _ => by decide⟩

theorem Bounded.setMessage (h : Bounded s) (limit : m.attempts ≤ MAX_DELIVERY_ATTEMPTS)
    (opened : m.Open → m.attempts < MAX_DELIVERY_ATTEMPTS) : Bounded (s.setMessage k m) := by
  intro j n hn
  obtain ⟨rfl, rfl⟩ | ⟨-, hn⟩ := get?_marked hn
  · exact ⟨limit, opened⟩
  · exact h j n hn

/-! ## Messages that were sent -/

/-- A request can be built for the message, whatever its key. -/
def OutboxMessage.Sendable (m : OutboxMessage platform) : Prop :=
  ∀ key, ∃ request, notificationRequest m key = .ok request

theorem sendable_of_ok {key : String} {request : NotificationRequest}
    (h : notificationRequest m key = .ok request) : m.Sendable := by
  intro other
  unfold notificationRequest at h ⊢
  obtain ⟨_, htype, h⟩ := except_bind_eq_ok.mp h
  obtain ⟨_, hsubject, h⟩ := except_bind_eq_ok.mp h
  obtain ⟨channel, hchannel, h⟩ := except_bind_eq_ok.mp h
  obtain ⟨recipient, hrecipient, h⟩ := except_bind_eq_ok.mp h
  obtain ⟨body, hbody, h⟩ := except_bind_eq_ok.mp h
  exact ⟨_, by rw [htype, hsubject, hchannel, hrecipient, hbody]; rfl⟩

/-- The payload is the event. -/
theorem OutboxMessage.Sendable.congr (h : m.Sendable) (event : m'.event = m.event) : m'.Sendable := by
  intro key
  obtain ⟨request, hrequest⟩ := h key
  refine ⟨request, ?_⟩
  unfold notificationRequest subjectOf at hrequest ⊢
  rwa [event]

/-- What was sent once can be sent again, and names a scheduled reminder. -/
def Attempted (u : ReminderStores platform) : Prop :=
  ∀ k m, u.outbox.messagesByKey.get? k = some m → 0 < m.attempts →
    m.Sendable ∧ ∀ principal, m.tenantId = principal.tenantId → Scheduled principal u.scheduler m

theorem Attempted.calm {u u' : ReminderStores platform} (h : Attempted u) (calm : Calm u.outbox u'.outbox)
    (kept : JobsKept u.scheduler u'.scheduler) : Attempted u' := by
  intro k m' hm' hpos
  cases hm : u.outbox.messagesByKey.get? k with
  | none =>
    rw [calm.added k m' hm' hm] at hpos
    exact absurd hpos (lt_irrefl 0)
  | some m =>
    obtain ⟨n, hn, honwards⟩ := calm.kept k m hm
    cases hn.symm.trans hm'
    obtain ⟨hsendable, hscheduled⟩ := h k m hm (honwards.attempts ▸ hpos)
    exact ⟨hsendable.congr honwards.same.event, fun principal htenant =>
      ((hscheduled principal (honwards.same.tenantId.symm.trans htenant)).kept kept).congr rfl
        honwards.same.event⟩

theorem Attempted.setMessage {u u' : ReminderStores platform} (h : Attempted u)
    (stored : u'.outbox = u.outbox.setMessage k m) (kept : JobsKept u.scheduler u'.scheduler)
    (hm : 0 < m.attempts → m.Sendable ∧
      ∀ principal, m.tenantId = principal.tenantId → Scheduled principal u.scheduler m) :
    Attempted u' := by
  intro j n hn hpos
  rw [stored] at hn
  obtain ⟨hsendable, hscheduled⟩ : n.Sendable ∧
      ∀ principal, n.tenantId = principal.tenantId → Scheduled principal u.scheduler n := by
    obtain ⟨rfl, rfl⟩ | ⟨-, hn⟩ := get?_marked hn
    · exact hm hpos
    · exact h j n hn hpos
  exact ⟨hsendable, fun principal htenant => (hscheduled principal htenant).kept kept⟩

/-- A message that only moved is what it was. -/
theorem Attempted.mark {u u' : ReminderStores platform} {old final : OutboxMessage platform} {id : String}
    (h : Attempted u) (mark : Marked principal id u u' k old final) (attempts : final.attempts = old.attempts)
    (kept : JobsKept u.scheduler u'.scheduler) : Attempted u' := by
  refine h.setMessage mark.stored kept fun hpos => ?_
  obtain ⟨hsendable, hscheduled⟩ := h k old mark.get? (attempts ▸ hpos)
  exact ⟨hsendable.congr mark.same.event, fun principal htenant =>
    (hscheduled principal (mark.same.tenantId.symm.trans htenant)).congr rfl mark.same.event⟩

namespace DispatchPool

variable {Worker : Type} [DecidableEq Worker] {c c' : DispatchPool platform Worker}
  {config : Worker → DispatchDueReminders} {admits : Block platform Unit → Prop}

open DispatchState

theorem Account.bounded (account : Account c c') (consistent : c.state.Consistent)
    (handed : ∀ v, Handed c.state (c.phase v)) (h : Bounded c.state.stores.outbox) :
    Bounded c'.state.stores.outbox := by
  cases account with
  | calm calm => exact h.calm calm
  | @fenced w principal now now' message old rest request k built mark claimed copy attempts =>
    have hlt := (h k old mark.get?).2 (.inr claimed)
    rw [mark.stored]
    refine h.setMessage hlt fun ho => ?_
    simp [OutboxMessage.Open, sendingCopy] at ho
  | used sending state => rwa [state]
  | @returned w principal now message old final rest request result k token answered mark stored handed'
      sending pending attempts transient more =>
    have hcurrent := attempts_of_answered consistent handed answered mark.get? stored handed'
    rw [mark.stored]
    exact h.setMessage (by omega) fun _ => by omega
  | @reopened principal messageId old final k mark uncertain pending attempts more =>
    rw [mark.stored]
    exact h.setMessage (by omega) fun _ => by omega

theorem Account.attempted (account : Account c c') (inv : Inv c.state.stores.outbox)
    (kept : JobsKept c.state.stores.scheduler c'.state.stores.scheduler)
    (h : Attempted c.state.stores) : Attempted c'.state.stores := by
  cases account with
  | calm calm => exact h.calm calm kept
  | @fenced w principal now now' message old rest request k built mark claimed copy attempts scheduled =>
    refine h.setMessage mark.stored kept fun _ => ⟨?_, fun other htenant => ?_⟩
    · exact (sendable_of_ok built).congr copy.event
    · have htenant' : old.tenantId = principal.tenantId :=
        (inv k old mark.get?).tenant.trans (find?_eq_some mark.found).2.1
      exact scheduled.congr (htenant.symm.trans htenant') rfl
  | used sending state => rwa [state]
  | returned answered mark stored handed' sending pending attempts => exact h.mark mark attempts kept
  | reopened mark uncertain pending attempts => exact h.mark mark attempts kept

theorem Reachable.bounded (h : Reachable config admits c) (writes : ∀ x, admits x → WritesOnly x) :
    Bounded c.state.stores.outbox ∧ Attempted c.state.stores := by
  induction h with
  | start => exact ⟨fun k m hm => by simp [ReminderStores.empty, InMemoryOutbox.empty] at hm,
      fun k m hm => by simp [ReminderStores.empty, InMemoryOutbox.empty] at hm⟩
  | @step c c' reachable step ih =>
    have consistent := reachable.consistent writes
    have inv := consistent.stores.outbox
    have account := step.account writes inv reachable.handed (reachable.faithful writes)
    exact ⟨account.bounded consistent reachable.handed ih.1,
      account.attempted inv (step.outcome writes inv reachable.handed).jobsKept ih.2⟩

omit [DecidableEq Worker] in
/-- What a claim hands out was stored, up to its claim. -/
theorem claimed_from {d : DispatchDueReminders} {principal : Principal} {now : Instant}
    {tokens : Key → Uuid} {g : ClaimedMessage platform}
    (h : g ∈ (c.state.afterClaim d principal now tokens).claimed) :
    g ∈ c.state.claimed ∨ ∃ k m, c.state.stores.outbox.messagesByKey.get? k = some m ∧
      g.message.event = m.event ∧ g.message.attempts = m.attempts := by
  have hforward := (@DispatchDueReminders.through_claim platform (fun _ => True) (fun _ _ _ => trivial)
    d principal now tokens trivial fun _ _ => trivial).forward
  unfold afterClaim at h
  rcases hb : begin_ principal (d.claim principal now tokens) c.state.stores with
    ⟨_ | ⟨handed, failed⟩, u⟩
  · rw [hb] at h
    exact .inl h
  rw [hb] at h
  obtain hold | hnew := List.mem_append.mp h
  · exact .inl hold
  obtain ⟨m, hm, rfl⟩ := List.mem_map.mp hnew
  obtain ⟨t, -, hbody, -⟩ := committed_of_begin hforward hb
  obtain ⟨owner, done, v, hbatch, -, hmem, -⟩ := batch_of_claim hbody
  obtain ⟨e, he, rfl⟩ := List.mem_map.mp (hmem m hm)
  obtain ⟨old, hold, -, hcopy⟩ := hbatch.each e he
  obtain ⟨until_, -, hcopy⟩ := except_bind_eq_ok.mp hcopy
  refine .inr ⟨e.1, old, hold, ?_⟩
  dsimp only
  rw [← Except.ok.inj hcopy]
  exact ⟨rfl, rfl⟩

/-- A worker that was handed a message with an attempt can build the request for it. -/
theorem Reachable.sendable (h : Reachable config admits c) (writes : ∀ x, admits x → WritesOnly x) :
    ∀ g ∈ c.state.claimed, 0 < g.message.attempts → g.message.Sendable := by
  induction h with
  | start => simp
  | @step c c' reachable step ih =>
    intro g hg hpos
    obtain hsame | ⟨w, principal, now, tokens, -, hstate⟩ := step.claimed
    · exact ih g (hsame ▸ hg) hpos
    · rw [hstate] at hg
      obtain hold | ⟨k, m, hm, hevent, hattempts⟩ := claimed_from hg
      · exact ih g hold hpos
      · exact (((reachable.bounded writes).2 k m hm (hattempts ▸ hpos)).1).congr hevent

end DispatchPool

/-! ## The main result -/

/-- A claim returns when its `claim_due` does, and fails only messages that were never sent. -/
theorem claim_returns {u : ReminderStores platform} (inv : Inv u.outbox) (ids : MessageIds u.outbox)
    (jobs : JobsValid platform u.scheduler) (attempted : Attempted u) {d : DispatchDueReminders}
    {now : Instant} {tokens : Key → Uuid} {messages : List (OutboxMessage platform)}
    (h : (claimDue principal (.ofInstant now) d.claimLimit d.owner d.leaseSeconds
      (some REMINDER_NOTIFICATION_EVENT_TYPE) tokens u.outbox).1 = .ok messages) :
    ∃ handed failed, (begin_ principal (d.claim principal now tokens) u).1 = .ok (handed, failed) ∧
      ∀ m ∈ failed, m.attempts = 0 := by
  rcases hrun : claimDue principal (.ofInstant now) d.claimLimit d.owner d.leaseSeconds
    (some REMINDER_NOTIFICATION_EVENT_TYPE) tokens u.outbox with ⟨r, o⟩
  rw [hrun] at h
  obtain ⟨e, he, -⟩ | ⟨time, owner, done, trusted, htime, -, -, -, hbatch, hr⟩ := claimDue_cases hrun
  · cases he.symm.trans h
  subst hr
  cases h
  have hcall : (claimDue principal (.ofInstant now) d.claimLimit d.owner d.leaseSeconds
      (some REMINDER_NOTIFICATION_EVENT_TYPE) tokens u.outbox).2 = o := congrArg Prod.snd hrun
  have hinv : Inv o := hcall ▸ (stepSpec_claimDue principal (.ofInstant now) d.claimLimit d.owner
    d.leaseSeconds (some REMINDER_NOTIFICATION_EVENT_TYPE) tokens u.outbox _ _ inv rfl).1
  have hids : MessageIds o := hcall ▸ OutboxCall.messageIds_run (.claimDue principal (.ofInstant now)
    d.claimLimit d.owner d.leaseSeconds (some REMINDER_NOTIFICATION_EVENT_TYPE) tokens) inv ids
  have hcopies : ∀ e ∈ done, e.1.1 = principal.tenantId ∧ e.2.dispatchStatus = .claimed ∧
      (0 < e.2.attempts → Scheduled principal u.scheduler e.2) := by
    intro e he
    obtain ⟨old, hold, hdue, hcopy⟩ := hbatch.each e he
    obtain ⟨until_, -, hcopy⟩ := except_bind_eq_ok.mp hcopy
    simp only [claimable, Bool.and_eq_true, decide_eq_true_eq] at hdue
    rw [← Except.ok.inj hcopy]
    refine ⟨hdue.1.1.1, rfl, fun hpos => ?_⟩
    have htenant : old.tenantId = principal.tenantId := (inv e.1 old hold).tenant.trans hdue.1.1.1
    exact ((attempted e.1 old hold hpos).2 principal htenant).congr rfl rfl
  have hready : ToMirror principal { u with outbox := o } done :=
    { inv := hinv, ids := hids, jobs, nodup := hbatch.nodup
      stored := fun e he => by
        rw [hbatch.state]
        exact get?_setMessages_of_mem hbatch.nodup he
      tenant := fun e he => (hcopies e he).1
      claimed := fun e he => (hcopies e he).2.1
      scheduled := fun e he => (hcopies e he).2.2 }
  obtain ⟨handed, failed, v, hloop, hzero⟩ := mirrorClaimed_returns trusted now done
    { enter u with stores := { u with outbox := o } } hready
  refine ⟨handed, failed, ?_, hzero⟩
  have hstore : store (onOutbox (claimDue principal (.ofInstant now) d.claimLimit d.owner d.leaseSeconds
      (some REMINDER_NOTIFICATION_EVENT_TYPE) tokens)) (enter u) =
      (.ok (done.map Prod.snd), { enter u with stores := { u with outbox := o } }) := by
    simp only [store, onOutbox, Op.zoom_apply, enter, hrun]
  unfold begin_
  rw [requireTrustedPrincipal_of_trusted trusted]
  unfold DispatchDueReminders.claim
  rw [Op.bind_ok hstore, Op.bind_ok hloop]
  simp [Op.bind_apply, commit, enter]

namespace DispatchPool

variable {Worker : Type} [DecidableEq Worker] {c : DispatchPool platform Worker}
  {config : Worker → DispatchDueReminders}

/-- In every reachable pool: waiting and claimed messages are below the limit of attempts and no message
is above it, so the provider is called for a message at most as often; the delay behind a transient
result exists; and `mark_claim_failed` meets only messages that were never sent: a worker whose request
cannot be built holds one and does not meet the checks on a failed message, and a claim whose
`claim_due` returns does so too. -/
theorem attempts_bounded (h : Reachable config (fun x => WritesOnly x) c) :
    (∀ k m, c.state.stores.outbox.messagesByKey.get? k = some m →
      m.attempts ≤ MAX_DELIVERY_ATTEMPTS ∧ (m.Open → m.attempts < MAX_DELIVERY_ATTEMPTS)) ∧
    (∀ x, (uses x c.log).length ≤ MAX_DELIVERY_ATTEMPTS) ∧
    (∀ g ∈ c.state.sending, g.message.attempts < MAX_DELIVERY_ATTEMPTS →
      ∃ delay, RETRY_DELAYS[g.message.attempts - 1]? = some delay) ∧
    (∀ g ∈ c.state.claimed, ∀ key e, notificationRequest g.message key = .error e →
      g.message.attempts = 0 ∧ ∀ now e', c.result g.principal
        (DispatchDueReminders.recordMalformed g.principal g.message now) = .error e' →
          e'.isValueError = false) ∧
    ∀ (d : DispatchDueReminders) (principal : Principal) (now : Instant) (tokens : Key → Uuid)
      (messages : List (OutboxMessage platform)),
      (claimDue principal (.ofInstant now) d.claimLimit d.owner d.leaseSeconds
        (some REMINDER_NOTIFICATION_EVENT_TYPE) tokens c.state.stores.outbox).1 = .ok messages →
      ∃ handed failed, c.result principal (d.claim principal now tokens) = .ok (handed, failed) ∧
        ∀ m ∈ failed, m.attempts = 0 := by
  have writes : ∀ x : Block platform Unit, WritesOnly x → WritesOnly x := fun _ hx => hx
  have consistent := h.consistent writes
  have ledger := h.ledger writes
  obtain ⟨hbounded, hattempted⟩ := h.bounded writes
  refine ⟨hbounded, fun x => ?_, fun g hg hlt => ?_, fun g hg key e hrefused => ?_,
    fun d principal now tokens messages hclaim =>
      claim_returns consistent.stores.outbox ledger.ids consistent.stores.jobs hattempted hclaim⟩
  · refine (ledger.legal x).length_uses_le.trans ?_
    by_cases hx : ∃ k m, c.state.stores.outbox.messagesByKey.get? k = some m ∧ m.reference = x
    · obtain ⟨k, m, hm, rfl⟩ := hx
      rw [ledger.counted.attempts k m hm]
      exact (hbounded k m hm).1
    · rw [ledger.counted.absent x fun k m hm hmx => hx ⟨k, m, hm, hmx⟩]
      exact Nat.zero_le _
  · exact ⟨_, retryDelay_eq (consistent.sending g hg).attempts hlt⟩
  · have hzero : g.message.attempts = 0 := by
      by_contra hne
      obtain ⟨request, hrequest⟩ := h.sendable writes g hg (Nat.pos_of_ne_zero hne) key
      cases hrefused.symm.trans hrequest
    refine ⟨hzero, fun now e' => recordMalformed_error consistent.stores.outbox consistent.stores.jobs ?_⟩
    intro k m token hm htoken hheld hclaimed
    exact ((h.faithful writes g hg token hheld k m hm htoken hclaimed).2).trans hzero

open TakeoverSample in
/-- Two calls of the provider, for two attempts. -/
theorem attempts_bounded_takeover :
    (pool.log.countP fun e => (FenceEvent.use? ("tenant-1", "out-1") e).isSome) = 2 ∧
      (uses ("tenant-1", "out-1") pool.log).length ≤ MAX_DELIVERY_ATTEMPTS :=
  ⟨by decide +kernel, (attempts_bounded reachable).2.1 _⟩

end DispatchPool

end PersonalAssistant
