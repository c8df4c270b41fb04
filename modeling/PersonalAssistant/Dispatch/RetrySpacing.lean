import PersonalAssistant.Dispatch.Reachable

/-!
# Retry spacing

A known transient result puts its message back with a retry time. `Waits` is what holds from then on, at
every interleaving, until the message is sent again: the stored retry time is not before the one that
was recorded, and a worker that still holds the token of the message claimed it at or after that time.
-/
namespace PersonalAssistant

open Lib InMemoryOutbox InMemoryReminderTransaction ReminderStores Relation

variable {platform : Platform} {c c' : DispatchState platform} {T : Instant}
  {stale stale' : String → Prop} {k : Key} {s s' : InMemoryOutbox platform}

theorem canonicalOption_ofInstant (t : Instant) (field : String) :
    canonicalOption (some (.ofInstant t)) field = .ok (some t) := by
  simp only [canonicalOption, DateTime.canonicalUtc_ofInstant]
  rfl

/-! ## Waiting for the retry time -/

/-- Until `T` the message under `k` is not claimed, and its token is not a stale one. -/
def Waits (T : Instant) (stale : String → Prop) (k : Key) (s : InMemoryOutbox platform) : Prop :=
  ∃ m, s.messagesByKey.get? k = some m ∧
    (m.dispatchStatus = .failed ∨ (m.dispatchStatus = .pending ∨ m.dispatchStatus = .claimed) ∧
      (∃ next, m.nextAttemptAt = some next ∧ T ≤ next) ∧
      ∀ token, m.claimToken = some token → ¬ stale token)

/-- The calls that keep a message waiting. -/
def OutboxCall.Spares (T : Instant) (stale : String → Prop) (k : Key) : OutboxCall platform → Prop
  | .claimDue _ now _ _ _ _ tokens =>
    ∀ t, now.canonicalUtc "now" = .ok t → T ≤ t → ¬ stale (tokenText (tokens k))
  | .markSending .. => False
  | .release _ _ token next =>
    stale token ∨ ∀ t, canonicalOption next "next_attempt_at" = .ok t → ∃ u, t = some u ∧ T ≤ u
  | _ => True

theorem Waits.run (h : Waits T stale k s) (inv : Inv s) {o : OutboxCall platform}
    (ho : o.Spares T stale k) : Waits T stale k (o.run s).2 := by
  obtain ⟨m, hm, hwaits⟩ := h
  obtain hsame | ⟨m', hm', hrewrites⟩ := o.leaves_run inv hm
  · exact ⟨m, hsame, hwaits⟩
  · refine ⟨m', hm', ?_⟩
    cases o with
    | add => exact hrewrites.elim
    | markSending => exact ho.elim
    | claimDue p now limit owner lease type tokens =>
      obtain ⟨t, o, ht, hdue, hcopy⟩ := hrewrites
      obtain ⟨until_, -, hcopy⟩ := except_bind_eq_ok.mp hcopy
      cases hcopy
      simp only [claimable, Bool.and_eq_true, Bool.or_eq_true, decide_eq_true_eq] at hdue
      obtain hfailed | ⟨hstatus, ⟨next, hnext, hle⟩, htoken⟩ := hwaits
      · simp [hfailed] at hdue
      · have hdue' : next ≤ t := by simpa [isDueTime, hnext] using hdue.2
        refine .inr ⟨.inr rfl, ⟨next, hnext, hle⟩, fun token htok => ?_⟩
        cases htok
        exact ho t ht (hle.trans hdue')
    | markClaimFailed =>
      obtain ⟨-, rfl⟩ := hrewrites
      exact .inl rfl
    | release p id token next =>
      obtain ⟨htoken, hclaimed, t, ht, rfl⟩ := hrewrites
      obtain hfailed | ⟨hstatus, hnext, hfresh⟩ := hwaits
      · simp [hfailed] at hclaimed
      · obtain hstale | hlater := ho
        · exact absurd hstale (hfresh token htoken)
        · exact .inr ⟨.inl rfl, hlater t ht, by simp [releasedCopy, clearClaim]⟩
    | resolveUncertainDelivered => obtain ⟨hst, -⟩ := hrewrites; grind
    | resolveUncertainRetry => obtain ⟨hst, -⟩ := hrewrites; grind
    | markPublished => obtain ⟨hst, -⟩ := hrewrites; grind
    | markFailed => obtain ⟨hst, -⟩ := hrewrites; grind
    | markUncertain => obtain ⟨hst, -⟩ := hrewrites; grind
    | reschedule => obtain ⟨hst, -⟩ := hrewrites; grind
    | sweepExpiredSending => obtain ⟨hst, -⟩ := hrewrites; grind

theorem Waits.mono (h : Waits T stale k s)
    (hle : ∀ m token, s.messagesByKey.get? k = some m → m.claimToken = some token →
      stale' token → stale token) : Waits T stale' k s := by
  obtain ⟨m, hm, hwaits⟩ := h
  refine ⟨m, hm, hwaits.imp_right fun ⟨hstatus, hnext, hfresh⟩ => ⟨hstatus, hnext, ?_⟩⟩
  intro token htoken hst
  exact hfresh token htoken (hle m token hm htoken hst)

/-- No `claim_due` with an earlier `now` touches a waiting message. -/
theorem Waits.get?_claimDue (h : Waits T stale k s) (inv : Inv s) {principal : Principal}
    {now : DateTime} {t : Instant} (ht : now.canonicalUtc "now" = .ok t) (hlt : t < T) {limit : Int}
    {owner : String} {lease : Int} {type : Option String} {tokens : Key → Uuid} :
    (claimDue principal now limit owner lease type tokens s).2.messagesByKey.get? k =
      s.messagesByKey.get? k := by
  obtain ⟨m, hm, hwaits⟩ := h
  obtain hsame | ⟨m', -, u, o, hu, hdue, -⟩ :=
    (OutboxCall.claimDue principal now limit owner lease type tokens).leaves_run inv hm
  · exact hsame.trans hm.symm
  · cases ht.symm.trans hu
    simp only [claimable, Bool.and_eq_true, Bool.or_eq_true, decide_eq_true_eq] at hdue
    obtain hfailed | ⟨-, ⟨next, hnext, hle⟩, -⟩ := hwaits
    · simp [hfailed] at hdue
    · have hdue' : next ≤ t := by simpa [isDueTime, hnext] using hdue.2
      exact absurd (hle.trans hdue') (not_le.mpr hlt)

/-! ## Waiting through the steps of the workers -/

namespace DispatchState

/-- A worker was handed this token by a claim before `T`. -/
def Stale (c : DispatchState platform) (T : Instant) (token : String) : Prop :=
  ∃ h ∈ c.claimed, h.message.claimToken = some token ∧ h.now < T

/-- The message under `k` is being sent, on a claim of `c` made at `T` or later. -/
def SentAfter (c : DispatchState platform) (T : Instant) (k : Key) (s : InMemoryOutbox platform) :
    Prop :=
  ∃ m g token, s.messagesByKey.get? k = some m ∧ m.dispatchStatus = .sending ∧
    m.claimToken = some token ∧ g ∈ c.claimed ∧ g.message.claimToken = some token ∧ T ≤ g.now

/-- A confirmation sends a waiting message only on a claim made late enough. -/
theorem waits_confirm {h : ClaimedMessage platform} (held : h ∈ c.claimed)
    {s : ReminderStores platform} (path : StorePath (Confirms h) c.stores s)
    (inv : Inv c.stores.outbox) (hw : Waits T (c.Stale T) k c.stores.outbox) :
    Waits T (c.Stale T) k s.outbox ∨ c.SentAfter T k s.outbox := by
  refine (path.keeps_outbox (P := fun t => Inv t ∧
    (Waits T (c.Stale T) k t ∨ c.SentAfter T k t)) (fun o t ho ht => ?_) ⟨inv, .inl hw⟩).2
  obtain ⟨inv, ht⟩ := ht
  refine ⟨(o.stepSpec t (o.run t).1 (o.run t).2 inv rfl).1, ?_⟩
  cases o with
  | markSending p id token startedAt =>
    have hhanded : h.message.claimToken = some token := ho
    obtain ⟨m, hm, hwaits⟩ | ⟨m, g, sent, hm, hsending, hrest⟩ := ht
    · obtain hsame | ⟨m', hm', htoken, hclaimed, u, rfl⟩ :=
        (OutboxCall.markSending p id token startedAt).leaves_run inv hm
      · exact .inl ⟨m, hsame, hwaits⟩
      · obtain hfailed | ⟨-, -, hfresh⟩ := hwaits
        · simp [hfailed] at hclaimed
        · have hlate : T ≤ h.now :=
            not_lt.mp fun hlt => hfresh token htoken ⟨h, held, hhanded, hlt⟩
          exact .inr ⟨_, h, token, hm', rfl, htoken, held, hhanded, hlate⟩
    · obtain hsame | ⟨m', -, -, hclaimed, -⟩ :=
        (OutboxCall.markSending p id token startedAt).leaves_run inv hm
      · exact .inr ⟨m, g, sent, hsame, hsending, hrest⟩
      · simp [hsending] at hclaimed
  | _ => exact ho.elim

/-- One step: the message goes on waiting, or it is sent on a claim made late enough. -/
theorem waits_step (consistent : c.Consistent) (hw : Waits T (c.Stale T) k c.stores.outbox)
    (step : Step c c') :
    Waits T (c'.Stale T) k c'.stores.outbox ∨ c.SentAfter T k c'.stores.outbox := by
  have inv := consistent.stores.outbox
  obtain path | @⟨now, tokens, s, new, fresh, path, drawn⟩ | ⟨held, path, -, -, -, -, -⟩ :=
    step.outcome inv
  · refine .inl (path.keeps_outbox (P := fun t => Inv t ∧ Waits T (c.Stale T) k t)
      (fun o t ho ht => ⟨(o.stepSpec t (o.run t).1 (o.run t).2 ht.1 rfl).1, ht.2.run ht.1 ?_⟩)
      ⟨inv, hw⟩).2
    cases o with
    | claimDue => exact ho.elim
    | markSending => exact ho.elim
    | release p id token next =>
      obtain ⟨g, hg, htoken, u, hu, rfl⟩ := ho
      obtain hlt | hle := lt_or_ge g.now T
      · exact .inl ⟨g, hg, htoken, hlt⟩
      · refine .inr fun t ht => ⟨u, ?_, hle.trans (Instant.le_of_addSeconds (by norm_num) hu)⟩
        rw [canonicalOption_ofInstant] at ht
        exact (Except.ok.inj ht).symm
    | _ => trivial
  · -- the claims of this step are late, or they are early and pass over the message
    have hnew : ∀ token, (DispatchState.mk s (c.claimed ++ new) c.sending).Stale T token →
        c.Stale T token ∨ (now < T ∧ ∃ j, token = tokenText (tokens j)) := by
      rintro token ⟨g, hg, htoken, hlt⟩
      obtain hold | hnew := List.mem_append.mp hg
      · exact .inl ⟨g, hold, htoken, hlt⟩
      · obtain ⟨rfl, j, hj⟩ := drawn g hnew
        exact .inr ⟨hlt, j, Option.some.inj (htoken.symm.trans hj)⟩
    refine .inl (path.keeps_outbox (P := fun t => Inv t ∧ Waits T _ k t)
      (fun o t ho ht => ⟨(o.stepSpec t (o.run t).1 (o.run t).2 ht.1 rfl).1, ht.2.run ht.1 ?_⟩)
      ⟨inv, hw.mono fun m token hm htoken hstale => ?_⟩).2
    · cases o with
      | claimDue p t limit owner lease type tokens' =>
        obtain ⟨rfl, rfl⟩ := ho
        intro u hu hle hstale
        rw [DateTime.canonicalUtc_ofInstant] at hu
        cases hu
        obtain ⟨g, hg, htoken, -⟩ | ⟨hlt, -⟩ := hnew _ hstale
        · exact fresh.unused k g hg htoken
        · exact absurd hle (not_le.mpr hlt)
      | markSending => exact ho.elim
      | release => exact ho.elim
      | _ => trivial
    · obtain hold | ⟨-, j, rfl⟩ := hnew token hstale
      · exact hold
      · exact absurd htoken (fresh.unstored j k m hm)
  · obtain hwaits | hsent := waits_confirm held path inv hw
    · exact .inl hwaits
    · exact .inr hsent

/-- Steps after which the message under `k` is not being sent. -/
def Unsent (k : Key) : DispatchState platform → DispatchState platform → Prop :=
  ReflTransGen fun c c' => Step c c' ∧
    ∀ m, c'.stores.outbox.messagesByKey.get? k = some m → m.dispatchStatus ≠ .sending

theorem waits_unsent (consistent : c.Consistent) (hw : Waits T (c.Stale T) k c.stores.outbox)
    (steps : Unsent k c c') : c'.Consistent ∧ Waits T (c'.Stale T) k c'.stores.outbox := by
  induction steps with
  | refl => exact ⟨consistent, hw⟩
  | tail _ step ih =>
    obtain ⟨consistent, hw⟩ := ih
    refine ⟨consistent.outcome (step.1.outcome consistent.stores.outbox), ?_⟩
    obtain hwaits | ⟨m, -, -, hm, hsending, -⟩ := waits_step consistent hw step.1
    · exact hwaits
    · exact absurd hsending (step.2 m hm)

end DispatchState

/-! ## Recording a transient result -/

/-- A message in `sending` can be rescheduled: it has everything the metadata asks for. -/
theorem rescheduledCopy_validates {m : OutboxMessage platform} (hs : Sound k m)
    (h : m.dispatchStatus = .sending) (next : Instant) (error : DeliveryError) :
    (rescheduledCopy next error m).modelValidate = .ok (rescheduledCopy next error m) := by
  have hn : (rescheduledCopy next error m).Normal :=
    ⟨hs.normal.id, hs.normal.tenantId, hs.normal.idempotencyKey, by simp [rescheduledCopy, clearClaim],
      by simp [rescheduledCopy, clearClaim], hs.normal.tenantId_ne, hs.normal.idempotencyKey_ne⟩
  have hmeta := hs.metadata
  simp only [OutboxMessage.StateMetadata, OutboxMessage.requireStateMetadata, h] at hmeta
  split_ifs at hmeta with _ hpublished
  have hok : (rescheduledCopy next error m).requireStateMetadata = .ok () := by
    simp_all [OutboxMessage.requireStateMetadata, rescheduledCopy, clearClaim,
      OutboxMessage.retainsClaim]
  rw [hn.modelValidate, hok]
  rfl

theorem transition_eq_ok {principal : Principal} {id token : String} {expected : DeliveryStatus}
    {updates : OutboxMessage platform → OutboxMessage platform} {m m' : OutboxMessage platform}
    (trusted : principal.trusted = true) (hne : token ≠ "")
    (hfind : s.find? principal id = some (k, m)) (htoken : m.claimToken = some token)
    (hstatus : m.dispatchStatus = expected) (hvalid : (updates m).modelValidate = .ok m') :
    transition principal id token expected updates s = (.ok m', s.setMessage k m') := by
  unfold transition
  rw [requireTrustedPrincipal_of_trusted trusted]
  simp [hne, hfind, htoken, hstatus, hvalid]

/-- Mirroring a message of the principal's tenant into sound jobs does not raise. -/
theorem mirrorIfScheduled_ok {principal : Principal} {message : OutboxMessage platform}
    (trusted : principal.trusted = true) (tenant : message.tenantId = principal.tenantId)
    {t : InMemoryReminderTransaction platform} (jobs : JobsValid platform t.stores.scheduler) :
    (mirrorIfScheduled principal message t).1 = .ok () := by
  unfold mirrorIfScheduled
  cases hsubject : subjectOf message with
  | none => rfl
  | some subject =>
    have hevent : message.event.subject = some subject := (Option.filter_eq_some_iff.mp hsubject).1
    have hcases : (ReminderScheduler.mirrorDelivery principal subject message t.stores.scheduler).1 =
          .error (ReminderScheduler.reminderNotFound principal) ∨
        ∃ job, (ReminderScheduler.mirrorDelivery principal subject message t.stores.scheduler).1 =
          .ok job := by
      unfold ReminderScheduler.mirrorDelivery
      rw [requireTrustedPrincipal_of_trusted trusted]
      cases hfind : t.stores.scheduler.find? principal subject with
      | none => simp [tenant, hevent, hfind]
      | some e =>
        have hjob := jobs e.1 e.2 (ReminderScheduler.find?_eq_some hfind).1
        have hmirrored : (e.2.mirrored message).Valid platform :=
          ⟨hjob.timezone, hjob.sourceEventId, hjob.payloadFingerprint⟩
        simp [tenant, hevent, hfind, hmirrored.modelValidate]
    obtain hmissing | ⟨job, hjob⟩ := hcases
    · simp [Op.handle, Op.bind_apply, store, onScheduler, hmissing, ReminderScheduler.reminderNotFound,
        PyError.code?]
    · simp [Op.handle, Op.bind_apply, store, onScheduler, hjob]

theorem claimToken_ne_empty {m : OutboxMessage platform} (hs : Sound k m)
    (h : m.dispatchStatus = .sending) {token : String} (htoken : m.claimToken = some token) :
    token ≠ "" := by
  have hmeta := hs.metadata
  simp only [OutboxMessage.StateMetadata, OutboxMessage.requireStateMetadata, h] at hmeta
  split_ifs at hmeta with hlacks
  rintro rfl
  simp [OutboxMessage.lacksClaim, OutboxMessage.isBlank, htoken] at hlacks

open DispatchDueReminders in
/-- A transient result of a send that is still stored puts the message back and commits. -/
theorem recordResult_transient {stores : ReminderStores platform} (lawful : Lawful stores)
    {principal : Principal} (trusted : principal.trusted = true)
    {m message : OutboxMessage platform} {result : NotificationResult}
    (transient : result.outcome = .knownTransient)
    (found : stores.outbox.find? principal message.id = some (k, m))
    (sending : m.dispatchStatus = .sending) {token : String} (stored : m.claimToken = some token)
    (handed : message.claimToken = some token) (more : message.attempts < MAX_DELIVERY_ATTEMPTS)
    (now : Instant) :
    ∃ stores', begin_ principal (recordResult principal message result now) stores =
        (.ok (rescheduledCopy (retryAt now (retryDelay message.attempts) result.retryAfter)
          (knownError result now) m), stores') ∧
      stores'.outbox = stores.outbox.setMessage k
        (rescheduledCopy (retryAt now (retryDelay message.attempts) result.retryAfter)
          (knownError result now) m) := by
  generalize hnext : retryAt now (retryDelay message.attempts) result.retryAfter = next
  generalize herror : knownError result now = error
  obtain ⟨hget, htenant, -⟩ := find?_eq_some found
  have hs := lawful.outbox k m hget
  have hne := claimToken_ne_empty hs sending stored
  have hoken : claimTokenOf message = .ok token := claimTokenOf_eq_ok.mpr ⟨handed, hne⟩
  have hmoved : recordOutcome principal message result now token stores.outbox =
      (.ok (rescheduledCopy next error m),
        stores.outbox.setMessage k (rescheduledCopy next error m)) := by
    unfold recordOutcome reschedule
    simp only [transient, if_neg (not_le.mpr more), hnext, herror, DateTime.canonicalUtc_ofInstant,
      Op.ofExcept_ok_bind]
    exact transition_eq_ok trusted hne found stored sending
      (rescheduledCopy_validates hs sending next error)
  -- the transaction between the two store calls
  obtain ⟨t₀, ht₀⟩ : ∃ t₀, t₀ = { enter stores with stores :=
      { stores with outbox := stores.outbox.setMessage k (rescheduledCopy next error m) } } :=
    ⟨_, rfl⟩
  have hstore : store (onOutbox (recordOutcome principal message result now token)) (enter stores) =
      (.ok (rescheduledCopy next error m), t₀) := by
    simp only [store, onOutbox, Op.zoom_apply, enter, hmoved, ht₀]
  have hjobs : JobsValid platform t₀.stores.scheduler := by
    rw [ht₀]
    exact lawful.jobs
  have hmirror : (mirrorIfScheduled principal (rescheduledCopy next error m) t₀).1 = .ok () :=
    @mirrorIfScheduled_ok platform principal (rescheduledCopy next error m) trusted
      (hs.tenant.trans htenant) t₀ hjobs
  have hmirrors : Through (fun call => ∃ p id m, call = StoreCall.mirrorDelivery p id m)
      (mirrorIfScheduled principal (rescheduledCopy next error m)) :=
    through_mirrorIfScheduled (fun p id m => ⟨p, id, m, rfl⟩) _ _
  have hforward := hmirrors.forward t₀
  have hkept := outbox_of_mirrors hmirrors t₀
  rcases hrun : mirrorIfScheduled principal (rescheduledCopy next error m) t₀ with ⟨r, t⟩
  rw [hrun] at hmirror hforward hkept
  dsimp only at hmirror hkept
  subst hmirror
  have houtbox : t₀.stores.outbox = stores.outbox.setMessage k (rescheduledCopy next error m) := by
    rw [ht₀]
  have hrolled : t.rolledBack = false := by
    rw [hforward.2, ht₀]
    rfl
  refine ⟨t.stores, ?_, hkept.trans houtbox⟩
  have hbody : recordResult principal message result now (enter stores) =
      (.ok (rescheduledCopy next error m), { t with committed := true }) := by
    unfold recordResult
    rw [hoken, Op.ofExcept_ok_bind, Op.bind_ok hstore, mirrorTerminal, Op.bind_ok hrun]
    simp [Op.bind_apply, commit, hrolled]
  unfold begin_
  rw [requireTrustedPrincipal_of_trusted trusted]
  simp only [hbody]
  rfl

theorem retryDelay_eq {attempts : Nat} (h : 0 < attempts) (h' : attempts < MAX_DELIVERY_ATTEMPTS) :
    RETRY_DELAYS[attempts - 1]? = some (retryDelay attempts) := by
  obtain rfl | rfl | rfl : attempts = 1 ∨ attempts = 2 ∨ attempts = 3 := by
    unfold MAX_DELIVERY_ATTEMPTS at h'
    omega
  all_goals rfl

/-- A transient result of a send that is still stored is recorded; the message is due after the delay of
its attempt or the last representable moment, no earlier `claim_due` touches it before its next send,
and that send is of a claim made late enough. -/
theorem retry_spacing (reachable : c.Reachable) {h : SendingMessage platform} (held : h ∈ c.sending)
    {result : NotificationResult} (transient : result.outcome = .knownTransient) {k : Key}
    {m : OutboxMessage platform}
    (found : c.stores.outbox.find? h.principal h.message.id = some (k, m))
    (sending : m.dispatchStatus = .sending) (fenced : m.claimToken = h.message.claimToken)
    (more : m.attempts < MAX_DELIVERY_ATTEMPTS) (now : Instant) :
    ∃ final stores next delay,
      begin_ h.principal (DispatchDueReminders.recordResult h.principal h.message result now) c.stores =
        (.ok final, stores) ∧
      stores.outbox.messagesByKey.get? k = some final ∧ final.dispatchStatus = .pending ∧
      final.nextAttemptAt = some next ∧ RETRY_DELAYS[m.attempts - 1]? = some delay ∧
      next.micros = min maxMicros
        (now.micros + max delay (result.retryAfter.getD 0) * microsPerSecond) ∧
      ∀ c', DispatchState.Unsent k { c with stores := stores } c' →
        (∀ (principal : Principal) (time : DateTime) (t : Instant) (limit : Int) (owner : String)
            (lease : Int) (type : Option String) (tokens : Key → Uuid),
          time.canonicalUtc "now" = .ok t → t < next →
          (claimDue principal time limit owner lease type tokens
            c'.stores.outbox).2.messagesByKey.get? k = c'.stores.outbox.messagesByKey.get? k) ∧
        ∀ c'', DispatchState.Step c' c'' →
          ∀ n, c''.stores.outbox.messagesByKey.get? k = some n → n.dispatchStatus = .sending →
            ∃ g ∈ c'.claimed, g.message.claimToken = n.claimToken ∧ next ≤ g.now := by
  have consistent := reachable.consistent
  obtain ⟨trusted, positive, token, handed, -, hstored⟩ := consistent.sending h held
  have hget := (find?_eq_some found).1
  have hattempts := (hstored k m hget (fenced.trans handed)).2
  obtain ⟨stores, hrun, houtbox⟩ := recordResult_transient consistent.stores trusted transient found
    sending (fenced.trans handed) handed (hattempts ▸ more) now
  have hfinal : stores.outbox.messagesByKey.get? k = some (rescheduledCopy
      (retryAt now (retryDelay h.message.attempts) result.retryAfter) (knownError result now) m) := by
    rw [houtbox, messagesByKey_setMessage, Dict.get?_set_self]
  have step : DispatchState.Step c { c with stores := stores } := by
    have hstep := DispatchState.Step.record h held result now
    unfold DispatchState.after at hstep
    rwa [hrun] at hstep
  have after : DispatchState.Consistent { c with stores := stores } :=
    consistent.outcome (step.outcome consistent.stores.outbox)
  refine ⟨_, stores, _, _, hrun, hfinal, rfl, rfl, retryDelay_eq (hattempts ▸ positive) more, ?_, ?_⟩
  · rw [hattempts]
    exact retryAt_micros _ _ _
  · intro c' steps
    obtain ⟨hc', hwaits⟩ := DispatchState.waits_unsent after
      ⟨_, hfinal, .inr ⟨.inl rfl, ⟨_, rfl, le_refl _⟩, by simp [rescheduledCopy, clearClaim]⟩⟩ steps
    refine ⟨fun principal time t limit owner lease type tokens ht hlt =>
      hwaits.get?_claimDue hc'.stores.outbox ht hlt, fun c'' step n hn hsending => ?_⟩
    obtain ⟨w, hw, hstatus⟩ | ⟨w, g, tok, hw, -, htok, hg, hgtok, hle⟩ :=
      DispatchState.waits_step hc' hwaits step
    · cases hw.symm.trans hn
      simp [hsending] at hstatus
    · cases hw.symm.trans hn
      exact ⟨g, hg, hgtok.trans htok.symm, hle⟩

/-! ### One notification -/

namespace NotificationSample

def midnight : Instant := ⟨0, Nat.zero_le _⟩

def schedule : ReminderScheduler.ScheduleRequest where
  calendarEventId := "cal-1"
  startsAt := .ofInstant ⟨3600000000, by decide⟩
  channel := "whatsapp"
  recipient := "573001112233"
  body := "Recordatorio"
  timezone := "UTC"
  sourceEventId := "wamid-1"
  payloadFingerprint := Digest.zero.text
  minutesBefore := 60
  idempotencyKey := "key-1:reminder"
  reminderId := some "rem-1"

/-- A scheduled job and its pending notification. -/
def stores : ReminderStores samplePlatform :=
  ((StoreCall.outbox sampleAdd).run
    ((StoreCall.scheduleBeforeEvent .sample schedule .zero).run .empty).2).2

def worker : DispatchDueReminders := ⟨"worker", 1, 60⟩

def claimed : DispatchState samplePlatform :=
  DispatchState.afterClaim ⟨stores, [], []⟩ worker .sample midnight fun _ => .zero

def sending : DispatchState samplePlatform :=
  match claimed.claimed with
  | [] => claimed
  | h :: _ => claimed.afterConfirm h midnight

/-- Another worker sweeps the send after its lease. -/
def swept : DispatchState samplePlatform :=
  sending.after .sample (worker.sweepExpiredSending .sample ⟨61000000, by decide⟩)

/-- A failure the provider reported, with a wait of ten minutes. -/
def transient : NotificationResult where
  outcome := .knownTransient
  providerCode := some ⟨503, by decide⟩
  retryAfter := some 600
  retryAfter_pos := by simp
  retryAfter_transient := fun _ => rfl

theorem outbox_stores : stores.outbox = (sampleAdd.run .empty).2 := by
  rw [stores, StoreCall.outbox_run]
  rfl

theorem claimToken_stores {k : Key} {m : OutboxMessage samplePlatform}
    (h : stores.outbox.messagesByKey.get? k = some m) : m.claimToken = none := by
  rw [outbox_stores] at h
  exact (sampleAdd.added_run InMemoryOutbox.Reachable.empty.inv rfl h).2

theorem key_stores {k : Key} (h : stores.outbox.messagesByKey.get? k ≠ none) :
    k = ("tenant-1", "key-1") := by
  obtain ⟨m, hm⟩ := Option.ne_none_iff_exists'.mp h
  have hkeys : stores.outbox.messagesByKey.entries.map Prod.fst = [("tenant-1", "key-1")] := by
    decide +kernel
  have hmem : k ∈ stores.outbox.messagesByKey.entries.map Prod.fst :=
    List.mem_map.mpr ⟨(k, m), Dict.mem_entries.mpr hm, rfl⟩
  rw [hkeys] at hmem
  exact List.mem_singleton.mp hmem

theorem lawful_stores : Lawful stores := by
  have hadd : Inv (sampleAdd.run .empty).2 := (InMemoryOutbox.Reachable.call sampleAdd .empty rfl).inv
  refine ⟨outbox_stores ▸ hadd, ?_, fun j k m n token hm _ htoken _ => ?_⟩
  · exact StoreCall.jobsValid_run _ (StoreCall.jobsValid_run _ Lawful.empty.jobs)
  · rw [claimToken_stores hm] at htoken
    cases htoken

theorem reachable_sending : sending.Reachable := by
  have hfresh : DispatchState.Fresh (⟨stores, [], []⟩ : DispatchState samplePlatform)
      (fun _ => .zero) := by
    refine ⟨fun j k hj hk _ => (key_stores hj).trans (key_stores hk).symm,
      fun k j m hm htoken => ?_, by simp⟩
    rw [claimToken_stores hm] at htoken
    cases htoken
  have hclaimed : claimed.Reachable :=
    .step (.start lawful_stores) (.claim worker .sample midnight _ hfresh)
  unfold sending
  split
  · exact hclaimed
  · rename_i h rest heq
    exact .step hclaimed (.confirm h (heq ▸ List.mem_cons_self) midnight)

theorem reachable_swept : swept.Reachable := .step reachable_sending (.sweep worker .sample _)

/-- The one send, as it is stored. -/
theorem exists_sending : ∃ h ∈ sending.sending, ∃ k m,
    sending.stores.outbox.find? h.principal h.message.id = some (k, m) ∧
    m.dispatchStatus = .sending ∧ m.claimToken = h.message.claimToken ∧ m.attempts = 1 := by
  have hcheck : sending.sending.any (fun h =>
      match sending.stores.outbox.find? h.principal h.message.id with
      | none => false
      | some (_, m) => m.dispatchStatus = .sending ∧ m.claimToken = h.message.claimToken ∧
          m.attempts = 1) = true := by decide +kernel
  obtain ⟨h, hmem, hsome⟩ := List.any_eq_true.mp hcheck
  cases hfind : sending.stores.outbox.find? h.principal h.message.id with
  | none => simp [hfind] at hsome
  | some e => exact ⟨h, hmem, e.1, e.2, hfind, by simpa [hfind] using hsome⟩

end NotificationSample

open NotificationSample in
theorem retry_spacing_after_ten_minutes : ∃ h ∈ sending.sending, ∃ final stores next,
    begin_ h.principal (DispatchDueReminders.recordResult h.principal h.message transient midnight)
      sending.stores = (.ok final, stores) ∧
    final.nextAttemptAt = some next ∧ next.micros = 600000000 := by
  obtain ⟨h, held, k, m, found, hsending, fenced, hattempts⟩ := exists_sending
  obtain ⟨final, stores, next, delay, hrun, -, -, hnext, hdelay, hmicros, -⟩ :=
    retry_spacing reachable_sending held (rfl : transient.outcome = _) found hsending fenced
      (by rw [hattempts]; decide) midnight
  refine ⟨h, held, final, stores, next, hrun, hnext, ?_⟩
  rw [hattempts] at hdelay
  cases hdelay
  rw [hmicros]
  decide

open NotificationSample in
/-- A result that comes back after the lease of its send was swept is not recorded. -/
theorem late_result_not_recorded :
    ¬ ∀ (c : DispatchState samplePlatform), c.Reachable → ∀ h ∈ c.sending,
      ∀ (result : NotificationResult), result.outcome = .knownTransient → ∀ now : Instant,
        ∃ final, (begin_ h.principal
          (DispatchDueReminders.recordResult h.principal h.message result now) c.stores).1 = .ok final := by
  intro hall
  have hcheck : swept.sending.any (fun h => !(begin_ h.principal
      (DispatchDueReminders.recordResult h.principal h.message transient ⟨62000000, by decide⟩)
      swept.stores).1.toBool) = true := by decide +kernel
  obtain ⟨h, hmem, hraises⟩ := List.any_eq_true.mp hcheck
  obtain ⟨final, hfinal⟩ := hall swept reachable_swept h hmem transient rfl ⟨62000000, by decide⟩
  rw [hfinal] at hraises
  cases hraises

end PersonalAssistant
