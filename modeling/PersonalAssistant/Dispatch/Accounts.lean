import PersonalAssistant.Dispatch.Marks

/-!
# What a step of the loop does

What a worker holds is the stored message as long as it is claimed under the token it was handed out
with. A step leaves the outbox calm, or does one thing to one message: it confirms a send, hands a
request to the provider, puts a message back after a transient result, or for an operator. `Account`
lists these cases with their events.
-/
namespace PersonalAssistant

open Lib InMemoryOutbox InMemoryReminderTransaction ReminderStores Relation

variable {platform : Platform} {α : Type} {s s' t : InMemoryOutbox platform} {k : Key}
  {m m' : OutboxMessage platform}

/-! ## Claims and the copies workers hold -/

/-- Every claim was drawn now, or is a claim that was there, of the same message and attempt. -/
def ClaimsFrom (drawn : Key → String → Prop) (s s' : InMemoryOutbox platform) : Prop :=
  ∀ k m' token, s'.messagesByKey.get? k = some m' → m'.claimToken = some token →
    m'.dispatchStatus = .claimed → drawn k token ∨ ∃ m, s.messagesByKey.get? k = some m ∧
      m.claimToken = some token ∧ m.dispatchStatus = .claimed ∧ SameIdentity m m' ∧
      m'.attempts = m.attempts

theorem ClaimsFrom.refl (drawn : Key → String → Prop) (s : InMemoryOutbox platform) :
    ClaimsFrom drawn s s := fun _ m _ hm htoken hclaimed => .inr ⟨m, hm, htoken, hclaimed, .refl m, rfl⟩

theorem ClaimsFrom.trans {drawn : Key → String → Prop} (h : ClaimsFrom drawn s t)
    (g : ClaimsFrom drawn t s') : ClaimsFrom drawn s s' := by
  intro k m' token hm' htoken' hclaimed'
  obtain hdrawn | ⟨n, hn, htoken, hclaimed, hsame, hattempts⟩ := g k m' token hm' htoken' hclaimed'
  · exact .inl hdrawn
  · obtain hdrawn | ⟨m, hm, htoken, hclaimed, hsame', hattempts'⟩ := h k n token hn htoken hclaimed
    · exact .inl hdrawn
    · exact .inr ⟨m, hm, htoken, hclaimed, hsame'.trans hsame, hattempts.trans hattempts'⟩

/-- An uncertain message has no claim token. -/
theorem claimToken_of_uncertain (h : Sound k m) (hstatus : m.dispatchStatus = .uncertain) :
    m.claimToken = none := by
  have hmeta := h.metadata
  simp only [OutboxMessage.StateMetadata, OutboxMessage.requireStateMetadata, hstatus] at hmeta
  split_ifs at hmeta
  simp_all [OutboxMessage.retainsClaim]

theorem ClaimsFrom.run {drawn : Key → String → Prop} (o : OutboxCall platform) (inv : Inv s)
    (hdrawn : ∀ k token, o.Draws k token → drawn k token) : ClaimsFrom drawn s (o.run s).2 := by
  intro k m' token hm' htoken hclaimed
  cases hm : s.messagesByKey.get? k with
  | none =>
    rw [(o.added_run inv hm hm').2] at htoken
    cases htoken
  | some m =>
    obtain hsame | ⟨n, hn, hrewrites⟩ := o.leaves_run inv hm
    · cases hsame.symm.trans hm'
      exact .inr ⟨m', rfl, htoken, hclaimed, .refl m', rfl⟩
    · cases hn.symm.trans hm'
      cases o with
      | add => exact hrewrites.elim
      | claimDue p now limit owner lease type tokens =>
        obtain ⟨t, o, -, -, hcopy⟩ := hrewrites
        obtain ⟨until_, -, hcopy⟩ := except_bind_eq_ok.mp hcopy
        have hdraw := (congrArg OutboxMessage.claimToken (Except.ok.inj hcopy)).trans htoken
        exact .inl (hdrawn k token (Option.some.inj hdraw).symm)
      | markSending p id held startedAt =>
        obtain ⟨-, -, t, rfl⟩ := hrewrites
        cases hclaimed
      | markClaimFailed =>
        obtain ⟨-, rfl⟩ := hrewrites
        cases htoken
      | release =>
        obtain ⟨-, -, t, -, rfl⟩ := hrewrites
        cases htoken
      | resolveUncertainDelivered =>
        cases (hrewrites.2.trans (claimToken_of_uncertain (inv k m hm) hrewrites.1)).symm.trans htoken
      | resolveUncertainRetry =>
        cases (hrewrites.2.trans (claimToken_of_uncertain (inv k m hm) hrewrites.1)).symm.trans htoken
      | markPublished => cases hrewrites.2.symm.trans htoken
      | markFailed => cases hrewrites.2.symm.trans htoken
      | markUncertain => cases hrewrites.2.symm.trans htoken
      | reschedule => cases hrewrites.2.symm.trans htoken
      | sweepExpiredSending => cases hrewrites.2.symm.trans htoken

theorem StorePath.claimsFrom {ok : StoreCall platform → Prop} {u u' : ReminderStores platform}
    (path : StorePath ok u u') (drawn : Key → String → Prop) (inv : Inv u.outbox)
    (hdrawn : ∀ o, ok (.outbox o) → ∀ k token, o.Draws k token → drawn k token) :
    ClaimsFrom drawn u.outbox u'.outbox :=
  (path.keeps_outbox (P := fun t => Inv t ∧ ClaimsFrom drawn u.outbox t) (fun o t ho ht =>
    ⟨(o.stepSpec t (o.run t).1 (o.run t).2 ht.1 rfl).1, ht.2.trans (.run o ht.1 (hdrawn o ho))⟩)
    ⟨inv, .refl _ _⟩).2

namespace DispatchState

variable {c c' : DispatchState platform}

/-- A message that is claimed under a token is the one that was handed out with it. -/
def Faithful (s : InMemoryOutbox platform) (h : ClaimedMessage platform) : Prop :=
  ∀ token, h.message.claimToken = some token → ∀ k m, s.messagesByKey.get? k = some m →
    m.claimToken = some token → m.dispatchStatus = .claimed →
    SameIdentity h.message m ∧ m.attempts = h.message.attempts

theorem Faithful.claimsFrom {h : ClaimedMessage platform} {drawn : Key → String → Prop}
    (faithful : Faithful s h) (from_ : ClaimsFrom drawn s s')
    (undrawn : ∀ k token, drawn k token → h.message.claimToken ≠ some token) : Faithful s' h := by
  intro token htoken k m' hm' htoken' hclaimed'
  obtain hdraw | ⟨m, hm, htoken'', hclaimed, hsame, hattempts⟩ := from_ k m' token hm' htoken' hclaimed'
  · exact absurd htoken (undrawn k token hdraw)
  · obtain ⟨hid, hn⟩ := faithful token htoken k m hm htoken'' hclaimed
    exact ⟨hid.trans hsame, hattempts.trans hn⟩

/-- What was handed out before a step stays faithful. -/
theorem Outcome.faithful (out : c.Outcome c') (inv : Inv c.stores.outbox) {h : ClaimedMessage platform}
    (held : h ∈ c.claimed) (faithful : Faithful c.stores.outbox h) : Faithful c'.stores.outbox h := by
  cases out with
  | quiet path =>
    refine faithful.claimsFrom (path.claimsFrom (fun _ _ => False) inv fun o ho k token hdraw => ?_)
      fun _ _ hf => hf.elim
    cases o with
    | claimDue => exact ho
    | _ => exact hdraw
  | @claimed now tokens s new fresh path drawn =>
    refine faithful.claimsFrom (path.claimsFrom (fun k token => token = tokenText (tokens k)) inv
      fun o ho k token hdraw => ?_) ?_
    · cases o with
      | claimDue => exact ho.2 ▸ hdraw
      | _ => exact hdraw.elim
    · rintro k token rfl
      exact fresh.unused k h held
  | confirmed held path trusted before stored handed after =>
    refine faithful.claimsFrom (path.claimsFrom (fun _ _ => False) inv fun o ho k token hdraw => ?_)
      fun _ _ hf => hf.elim
    cases o with
    | claimDue => exact ho
    | _ => exact hdraw

/-- The calls of a claim after `claim_due`. -/
def Fails : StoreCall platform → Prop
  | .outbox (.markClaimFailed ..) | .mirrorDelivery .. => True
  | _ => False

open DispatchDueReminders in
/-- What a claim hands out was stored by its `claim_due`; afterwards it only failed claims. -/
theorem batch_of_claim {d : DispatchDueReminders} {principal : Principal} {now : Instant}
    {tokens : Key → Uuid} {dispatchable prefailed : List (OutboxMessage platform)}
    {t t' : InMemoryReminderTransaction platform}
    (h : d.claim principal now tokens t = (.ok (dispatchable, prefailed), t')) :
    ∃ owner done u, Batch (claimable principal now (some REMINDER_NOTIFICATION_EVENT_TYPE))
        (claimedCopy owner now d.leaseSeconds tokens) t.stores.outbox done u ∧
      (claimDue principal (.ofInstant now) d.claimLimit d.owner d.leaseSeconds
        (some REMINDER_NOTIFICATION_EVENT_TYPE) tokens t.stores.outbox).2 = u ∧
      (∀ m ∈ dispatchable, m ∈ done.map Prod.snd) ∧
      StorePath Fails { t.stores with outbox := u } t'.stores ∧ t'.committed = true := by
  obtain ⟨messages, v, hclaim, h⟩ := Op.bind_eq_ok h
  obtain ⟨⟨handed, failed⟩, w, hmirror, h⟩ := Op.bind_eq_ok h
  obtain ⟨_, x, hcommit, h⟩ := Op.bind_eq_ok h
  cases h
  cases commit_eq_ok hcommit
  obtain ⟨stores, hstores, rfl⟩ := store_cases hclaim
  obtain ⟨u, hrun, rfl⟩ := Op.zoom_cases hstores
  obtain ⟨e, he, -⟩ | ⟨time, owner, done, -, htime, -, -, -, hbatch, hr⟩ := claimDue_cases hrun
  · cases he
  · cases hr
    rw [DateTime.canonicalUtc_ofInstant] at htime
    cases htime
    have hx : Through Fails (mirrorClaimed principal now (done.map Prod.snd)) :=
      through_mirrorClaimed (fun _ _ _ => trivial) (fun _ _ => trivial) _
    have path := hx.keeps (P := StorePath Fails { t.stores with outbox := u })
      (fun call _ hcall path => path.tail (.inl ⟨call, hcall, rfl⟩))
      { t with stores := { t.stores with outbox := u } } .refl
    rw [hmirror] at path
    exact ⟨owner, done, u, hbatch, congrArg Prod.snd hrun, mem_of_mirrorClaimed hmirror, path, rfl⟩

/-- What a claim hands out is faithful. -/
theorem faithful_afterClaim {d : DispatchDueReminders} {principal : Principal} {now : Instant}
    {tokens : Key → Uuid} (fresh : c.Fresh tokens) (inv : Inv c.stores.outbox)
    {h : ClaimedMessage platform} (held : h ∈ (c.afterClaim d principal now tokens).claimed) :
    h ∈ c.claimed ∨ Faithful (c.afterClaim d principal now tokens).stores.outbox h := by
  have hforward := (@DispatchDueReminders.through_claim platform (fun _ => True) (fun _ _ _ => trivial)
    d principal now tokens trivial fun _ _ => trivial).forward
  unfold afterClaim at held ⊢
  rcases hb : begin_ principal (d.claim principal now tokens) c.stores with ⟨_ | ⟨handed, failed⟩, s⟩
  · rw [hb] at held
    exact .inl held
  rw [hb] at held
  obtain hold | hnew := List.mem_append.mp held
  · exact .inl hold
  obtain ⟨m, hm, rfl⟩ := List.mem_map.mp hnew
  refine .inr fun token htoken k m' hm' htoken' hclaimed' => ?_
  obtain ⟨t, -, hbody, hs⟩ := committed_of_begin hforward hb
  obtain ⟨owner, done, u, hbatch, hclaim, hmem, path, hcommitted⟩ := batch_of_claim hbody
  rw [hcommitted, if_pos rfl] at hs
  subst hs
  have hinv : Inv u := hclaim ▸ (stepSpec_claimDue principal (.ofInstant now) d.claimLimit d.owner
    d.leaseSeconds (some REMINDER_NOTIFICATION_EVENT_TYPE) tokens c.stores.outbox _ _ inv rfl).1
  have hdrawn : ∀ (j : Key) (n n' : OutboxMessage platform), claimedCopy owner now d.leaseSeconds tokens j n = .ok n' →
      n'.claimToken = some (tokenText (tokens j)) := by
    intro j n n' hcopy
    obtain ⟨until_, -, hcopy⟩ := except_bind_eq_ok.mp hcopy
    cases hcopy
    rfl
  obtain ⟨e, he, rfl⟩ := List.mem_map.mp (hmem m hm)
  obtain ⟨old, hold, -, hcopy⟩ := hbatch.each e he
  have hstored : u.messagesByKey.get? e.1 = some e.2 := by
    rw [hbatch.state]
    exact get?_setMessages_of_mem hbatch.nodup he
  cases htoken.symm.trans (hdrawn e.1 old e.2 hcopy)
  obtain hfalse | ⟨n, hn, hntoken, -, hsame, hattempts⟩ :=
    path.claimsFrom (fun _ _ => False) hinv (fun o ho k token hdraw => by
      cases o with
      | markClaimFailed => exact hdraw
      | _ => exact ho.elim) k m' _ hm' htoken' hclaimed'
  · exact hfalse.elim
  · -- the token was drawn for one message only
    obtain hkept | ⟨n₀, n₁, hn₀, -, hcopy₀, hn₁⟩ := hbatch.get? k
    · exact absurd hntoken (fresh.unstored e.1 k n (hkept.symm.trans hn))
    · cases hn₁.symm.trans hn
      have htokens := tokenText_injective
        (Option.some.inj ((hdrawn k n₀ n hcopy₀).symm.trans hntoken))
      have hk : k = e.1 := fresh.distinct k e.1 (by
        have hn₀' : c.stores.outbox.messagesByKey.get? k = some n₀ := hn₀
        simp [hn₀']) (by
        have hold' : c.stores.outbox.messagesByKey.get? e.1 = some old := hold
        simp [hold']) htokens
      subst hk
      cases hstored.symm.trans hn
      exact ⟨hsame, hattempts⟩

end DispatchState

namespace DispatchPool

variable {Worker : Type} [DecidableEq Worker] {c c' : DispatchPool platform Worker}
  {config : Worker → DispatchDueReminders} {admits : Block platform Unit → Prop}

open DispatchState

/-- Only a claim hands out messages to claim. -/
theorem Step.claimed (step : Step c config admits c') :
    c'.state.claimed = c.state.claimed ∨ ∃ w principal now tokens, c.state.Fresh tokens ∧
      c'.state = c.state.afterClaim (config w) principal now tokens := by
  cases step with
  | @claim w principal now swept tokens fresh =>
    exact .inr ⟨w, principal, now, tokens, fresh, advance_state ..⟩
  | @confirm w principal now message rest =>
    refine .inl ?_
    rw [advance_state]
    unfold afterConfirm
    split <;> rfl
  | finish => exact .inl rfl
  | send => exact .inl rfl
  | crash => exact .inl rfl
  | resolve => exact .inl rfl
  | write => exact .inl rfl
  | elsewhere => exact .inl rfl
  | _ =>
    rw [advance_state]
    exact .inl rfl

/-- In a reachable pool every message that was handed out is faithful. -/
theorem Reachable.faithful (h : Reachable config admits c) (writes : ∀ x, admits x → WritesOnly x) :
    ∀ g ∈ c.state.claimed, Faithful c.state.stores.outbox g := by
  induction h with
  | start => simp
  | @step c c' reachable step ih =>
    have inv := (reachable.consistent writes).stores.outbox
    have out := step.outcome writes inv reachable.handed
    have hkept : ∀ g ∈ c.state.claimed, Faithful c'.state.stores.outbox g :=
      fun g hg => out.faithful inv hg (ih g hg)
    intro g hg
    obtain hsame | ⟨w, principal, now, tokens, fresh, hstate⟩ := step.claimed
    · exact hkept g (hsame ▸ hg)
    · rw [hstate] at hg hkept ⊢
      exact (faithful_afterClaim fresh inv hg).elim (hkept g) id

omit [DecidableEq Worker] in
/-- A worker behind the provider that still holds the stored claim holds the stored attempt. -/
theorem attempts_of_answered (consistent : c.state.Consistent) (handed : ∀ v, Handed c.state (c.phase v))
    {w : Worker} {principal : Principal} {now : Instant} {message old : OutboxMessage platform}
    {rest : List (OutboxMessage platform)} {request : NotificationRequest}
    {result : Option NotificationResult} {token : String}
    (answered : c.phase w = .answered principal now request message result rest)
    (get : c.state.stores.outbox.messagesByKey.get? k = some old) (stored : old.claimToken = some token)
    (held : message.claimToken = some token) : old.attempts = message.attempts := by
  have hsending : (⟨principal, message⟩ : SendingMessage platform) ∈ c.state.sending := by
    have := handed w
    rw [answered] at this
    exact this.1
  obtain ⟨token', htoken', -, hstored⟩ := (consistent.sending _ hsending).token
  cases held.symm.trans htoken'
  exact (hstored k old get stored).2

/-! ## The account of a step -/

/-- The phases outside of a send. -/
def Clear : DispatchPhase platform → Prop
  | .sending .. | .answered .. => False
  | _ => True

/-- What a step did to the outbox, the log and the phases. -/
inductive Account (c c' : DispatchPool platform Worker) : Prop where
  | calm (outbox : Calm c.state.stores.outbox c'.state.stores.outbox) (log : c'.log = c.log)
      (phases : ∀ v, c'.phase v = c.phase v ∨ Clear (c'.phase v))
  | fenced {w : Worker} {principal : Principal} {now now' : Instant} {message old : OutboxMessage platform}
      {rest : List (OutboxMessage platform)} {request : NotificationRequest} {k : Key}
      (built : notificationRequest message (attemptIdempotencyKey message) = .ok request)
      (mark : Marked principal message.id c.state.stores c'.state.stores k old (sendingCopy now' old))
      (claimed : old.dispatchStatus = .claimed) (copy : SameIdentity message old)
      (attempts : old.attempts = message.attempts)
      (scheduled : Scheduled principal c.state.stores.scheduler old)
      (log : c'.log = .fenced old.reference (old.attempts + 1) :: c.log)
      (phases : c'.phase = Function.update c.phase w
        (.sending principal now request (sendingCopy now' old) rest))
  | used {w : Worker} {principal : Principal} {now : Instant} {message : OutboxMessage platform}
      {rest : List (OutboxMessage platform)} {request : NotificationRequest}
      {result : Option NotificationResult}
      (sending : c.phase w = .sending principal now request message rest) (state : c'.state = c.state)
      (log : c'.log = .used message.reference request.idempotencyKey :: c.log)
      (phases : c'.phase = Function.update c.phase w
        (.answered principal now request message result rest))
  | returned {w : Worker} {principal : Principal} {now : Instant}
      {message old final : OutboxMessage platform} {rest : List (OutboxMessage platform)}
      {request : NotificationRequest} {result : NotificationResult} {k : Key} {token : String}
      (answered : c.phase w = .answered principal now request message (some result) rest)
      (mark : Marked principal message.id c.state.stores c'.state.stores k old final)
      (stored : old.claimToken = some token) (handed : message.claimToken = some token)
      (sending : old.dispatchStatus = .sending) (pending : final.dispatchStatus = .pending)
      (attempts : final.attempts = old.attempts) (transient : result.outcome = .knownTransient)
      (more : message.attempts < MAX_DELIVERY_ATTEMPTS)
      (log : c'.log = .returned old.reference request.idempotencyKey :: c.log)
      (phases : ∀ v, c'.phase v = c.phase v ∨ Clear (c'.phase v))
  | reopened {principal : Principal} {messageId : String} {old final : OutboxMessage platform} {k : Key}
      (mark : Marked principal messageId c.state.stores c'.state.stores k old final)
      (uncertain : old.dispatchStatus = .uncertain) (pending : final.dispatchStatus = .pending)
      (attempts : final.attempts = old.attempts) (more : old.attempts < MAX_DELIVERY_ATTEMPTS)
      (log : c'.log = .reopened old.reference :: c.log) (phases : c'.phase = c.phase)

theorem advance_log {w : Worker} {state : DispatchState platform} {result : Except PyError α}
    {next : α → DispatchPhase platform} : (c.advance w state result next fun _ => []).log = c.log := by
  cases result <;> rfl

theorem phases_update (phase : Worker → DispatchPhase platform) (w : Worker)
    (next : DispatchPhase platform) (h : Clear next) (v : Worker) :
    Function.update phase w next v = phase v ∨ Clear (Function.update phase w next v) := by
  by_cases hv : v = w
  · subst hv
    exact .inr (by rwa [Function.update_self])
  · exact .inl (Function.update_of_ne hv _ _)

theorem phases_advance {w : Worker} {state : DispatchState platform} {result : Except PyError α}
    {next : α → DispatchPhase platform} {events : α → List DispatchEvent} (h : ∀ a, Clear (next a))
    (v : Worker) : (c.advance w state result next events).phase v = c.phase v ∨
      Clear ((c.advance w state result next events).phase v) := by
  cases result with
  | ok a => exact phases_update c.phase w _ (h a) v
  | error e => exact phases_update c.phase w .idle trivial v

/-- A transaction of calm calls, after which its worker goes on outside of a send. -/
theorem account_advance {w : Worker} {principal : Principal} {x : Block platform α}
    {next : α → DispatchPhase platform} (hx : Through CalmCall x) (inv : Inv c.state.stores.outbox)
    (hnext : ∀ a, Clear (next a)) : Account c (c.advance w (c.state.after principal x)
      (c.result principal x) next fun _ => []) :=
  .calm (by
    rw [advance_state]
    exact calm_begin hx principal inv) advance_log (phases_advance hnext)

theorem reference_eq {m m' : OutboxMessage platform} (h : SameIdentity m m') :
    m'.reference = m.reference := by rw [OutboxMessage.reference, h.tenantId, h.id]; rfl

/-- A block that raised left the stores alone. -/
theorem stores_of_error {principal : Principal} {x : Block platform α} (hx : Forward x)
    {u u' : ReminderStores platform} {e : PyError} (h : begin_ principal x u = (.error e, u')) : u' = u := by
  obtain ⟨_, -, rfl⟩ | ⟨a, t, -, -, ha, -⟩ := begin_cases hx h
  · rfl
  · cases ha

open DispatchDueReminders

omit [DecidableEq Worker] in
theorem stores_after {principal : Principal} {x : Block platform α} {result : Except PyError α}
    {u : ReminderStores platform} (h : begin_ principal x c.state.stores = (result, u)) :
    (c.state.after principal x).stores = u := by
  unfold DispatchState.after
  rw [h]

/-- The send of a claimed message is confirmed under the copy its worker holds. -/
theorem account_confirm {w : Worker} {principal : Principal} {now now' : Instant}
    {message : OutboxMessage platform} {rest : List (OutboxMessage platform)} {request : NotificationRequest}
    (inv : Inv c.state.stores.outbox) (handed : Handed c.state (c.phase w))
    (faithful : ∀ g ∈ c.state.claimed, Faithful c.state.stores.outbox g)
    (looping : c.phase w = .looping principal now (message :: rest))
    (built : notificationRequest message (attemptIdempotencyKey message) = .ok request) :
    Account c (c.advance w (c.state.afterConfirm ⟨principal, message, now⟩ now')
      (c.result principal (confirmSending principal message now'))
      (fun sending => .sending principal now request sending rest)
      fun sending => [.fenced sending.reference sending.attempts]) := by
  have hforward := (@through_confirmSending platform (fun _ => True) (fun _ _ _ => trivial) principal
    now' message fun _ _ => trivial).forward
  rw [looping] at handed
  unfold result
  rcases hb : begin_ principal (confirmSending principal message now') c.state.stores
    with ⟨e | sending, u⟩
  · refine .calm ?_ rfl (phases_update c.phase w .idle trivial)
    rw [advance_state]
    unfold afterConfirm
    rw [hb, stores_of_error hforward hb]
    exact .refl _
  · obtain ⟨k, old, token, mark, hstored, hhanded, hclaimed, rfl, hscheduled⟩ := confirmSending_spec hb inv
    obtain ⟨hsame, hattempts⟩ := faithful _ (handed message List.mem_cons_self) token hhanded k old
      mark.get? hstored hclaimed
    have hstate : (c.state.afterConfirm ⟨principal, message, now⟩ now').stores = u := by
      unfold afterConfirm
      rw [hb]
    refine .fenced (k := k) built ?_ hclaimed hsame hattempts hscheduled rfl rfl
    rw [advance_state, hstate]
    exact mark

/-- A recorded result puts the message back, or closes it. -/
theorem account_record {w : Worker} {principal : Principal} {now now' : Instant}
    {message : OutboxMessage platform} {rest : List (OutboxMessage platform)} {request : NotificationRequest}
    {answer : NotificationResult} (inv : Inv c.state.stores.outbox)
    (answered : c.phase w = .answered principal now request message (some answer) rest) :
    Account c (c.advance w (c.state.after principal (recordResult principal message
        answer now'))
      (c.result principal (recordResult principal message answer now'))
      (fun _ => .looping principal now rest) (recordedEvents request)) := by
  have hforward := (@through_recordResult platform (fun _ => True) (fun _ _ _ => trivial) principal
    now' message answer fun _ _ => trivial).forward
  unfold result
  rcases hb : begin_ principal (recordResult principal message answer now')
    c.state.stores with ⟨e | final, u⟩
  · refine .calm ?_ rfl (phases_update c.phase w .idle trivial)
    rw [advance_state, stores_after hb, stores_of_error hforward hb]
    exact .refl _
  · obtain ⟨k, old, token, mark, hstored, hhanded, hsending, hattempts, hopen⟩ := recordResult_spec hb inv
    by_cases hpending : final.dispatchStatus = .pending
    · obtain ⟨-, htransient, hmore⟩ := hopen (.inl hpending)
      refine .returned (k := k) answered ?_ hstored hhanded hsending hpending hattempts htransient hmore ?_
        (phases_update c.phase w _ trivial)
      · rw [advance_state, stores_after hb]
        exact mark
      · rw [← reference_eq mark.same]
        simp [advance, recordedEvents, hpending]
    · refine .calm ?_ ?_ (phases_update c.phase w _ trivial)
      · rw [advance_state, stores_after hb, mark.stored]
        exact calm_setMessage mark.get? ⟨mark.same, hattempts, fun ho => absurd (hopen ho).1 hpending⟩
      · simp [advance, recordedEvents, hpending]

/-- An operator puts an uncertain message back, or closes it. -/
theorem account_resolve {principal : Principal} {messageId resolution : String} {now : Instant}
    (inv : Inv c.state.stores.outbox) :
    Account c {
      state := c.state.after principal (@resolveUncertain platform principal messageId resolution now)
      phase := c.phase
      log := match c.result principal (@resolveUncertain platform principal messageId resolution now) with
        | .ok final => resolvedEvents final ++ c.log
        | .error _ => c.log } := by
  have hforward := (@through_resolveUncertain platform (fun _ => True) (fun _ _ _ => trivial) principal
    now messageId resolution fun _ _ => trivial).forward
  unfold result
  rcases hb : begin_ principal (@resolveUncertain platform principal messageId resolution now)
    c.state.stores with ⟨e | final, u⟩
  · refine .calm ?_ rfl fun _ => .inl rfl
    rw [stores_after hb, stores_of_error hforward hb]
    exact .refl _
  · obtain ⟨k, old, mark, huncertain, hattempts, hopen⟩ := resolveUncertain_spec hb inv
    by_cases hpending : final.dispatchStatus = .pending
    · rw [← stores_after hb] at mark
      refine .reopened mark huncertain hpending hattempts (hopen (.inl hpending)).2 ?_ rfl
      rw [← reference_eq mark.same]
      simp [resolvedEvents, hpending]
    · refine .calm ?_ ?_ fun _ => .inl rfl
      · rw [stores_after hb, mark.stored]
        exact calm_setMessage mark.get? ⟨mark.same, hattempts, fun ho => absurd (hopen ho).1 hpending⟩
      · simp [resolvedEvents, hpending]

/-- The complete account of a step. -/
theorem Step.account (step : Step c config admits c') (writes : ∀ x, admits x → WritesOnly x)
    (inv : Inv c.state.stores.outbox) (handed : ∀ v, Handed c.state (c.phase v))
    (faithful : ∀ g ∈ c.state.claimed, Faithful c.state.stores.outbox g) : Account c c' := by
  have hmirror : ∀ (p : Principal) id (m : OutboxMessage platform), CalmCall (.mirrorDelivery p id m) :=
    fun _ _ _ => trivial
  cases step with
  | sweep idle principal now =>
    exact account_advance (through_sweepExpiredSending hmirror rfl) inv fun _ => trivial
  | @claim w principal now swept tokens fresh =>
    refine .calm ?_ advance_log (phases_advance fun _ => trivial)
    have hcalm : Calm c.state.stores.outbox (begin_ principal ((config w).claim principal now tokens)
        c.state.stores).2.outbox :=
      calm_begin (through_claim hmirror rfl fun _ _ => rfl) principal inv
    rw [advance_state]
    unfold afterClaim
    split <;> simp_all
  | finish => exact .calm (.refl _) rfl (phases_update c.phase _ .idle trivial)
  | release =>
    exact account_advance (through_releaseBeforeIo hmirror fun _ _ _ _ => rfl) inv fun _ => trivial
  | malformed =>
    exact account_advance (through_recordMalformed hmirror fun _ => rfl) inv fun _ => trivial
  | @confirm w principal now message rest looping approval clock approved request built now' =>
    exact account_confirm inv (handed w) faithful looping built
  | send sending answer => exact .used sending rfl rfl rfl
  | unknown =>
    exact account_advance (through_recordUnknown hmirror fun _ => rfl) inv fun _ => trivial
  | record answered => exact account_record inv answered
  | crash w => exact .calm (.refl _) rfl (phases_update c.phase w .idle trivial)
  | resolve => exact account_resolve inv
  | write principal admitted =>
    refine .calm (calm_begin ((writes _ admitted).mono fun call hcall => ?_) principal inv) rfl
      fun _ => .inl rfl
    cases call with
    | outbox o => cases o <;> first | rfl | exact hcall.elim
    | _ => trivial
  | elsewhere states => exact .calm (.refl _) rfl fun _ => .inl rfl

end DispatchPool

end PersonalAssistant
