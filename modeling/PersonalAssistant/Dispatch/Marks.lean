import PersonalAssistant.Dispatch.Loop

/-!
# What the transactions of the loop do to the stored messages

Most calls keep the attempts of every message and put none back that was closed: the outbox stays
`Calm`. The transactions that confirm a send, record a result or resolve an uncertain message move one
message each, and their specifications say which one, and where to.
-/
namespace PersonalAssistant

open Lib InMemoryOutbox InMemoryReminderTransaction ReminderStores Relation

variable {platform : Platform} {α : Type} {s s' t : InMemoryOutbox platform} {k : Key}
  {m m' : OutboxMessage platform}

/-! ## Messages that go on -/

/-- The message waits for a worker or is held by one. -/
def OutboxMessage.Open (m : OutboxMessage platform) : Prop :=
  m.dispatchStatus = .pending ∨ m.dispatchStatus = .claimed

/-- The message went on without a send, and was not put back. -/
structure Onwards (m m' : OutboxMessage platform) : Prop where
  same : SameIdentity m m'
  attempts : m'.attempts = m.attempts
  opened : m'.Open → m.Open

theorem Onwards.refl (m : OutboxMessage platform) : Onwards m m := ⟨.refl m, rfl, id⟩

theorem Onwards.trans {m'' : OutboxMessage platform} (h : Onwards m m') (g : Onwards m' m'') :
    Onwards m m'' :=
  ⟨h.same.trans g.same, g.attempts.trans h.attempts, fun ho => h.opened (g.opened ho)⟩

theorem sameIdentity_of_move {time : Option Instant} (h : Move time m m') : SameIdentity m m' :=
  ⟨h.id, h.tenantId, h.event, h.idempotencyKey, h.createdAt⟩

/-- A move that ends outside of a claim and of a send leaves the attempts alone. -/
theorem Onwards.of_move {time : Option Instant} (h : Move time m m') (hne : m'.dispatchStatus ≠ .sending)
    (opened : m'.Open → m.Open) : Onwards m m' :=
  ⟨sameIdentity_of_move h, by simpa [hne] using h.attempts, opened⟩

/-- Every message went on, and new ones have not been sent. -/
structure Calm (s s' : InMemoryOutbox platform) : Prop where
  kept : ∀ k m, s.messagesByKey.get? k = some m →
    ∃ m', s'.messagesByKey.get? k = some m' ∧ Onwards m m'
  added : ∀ k m', s'.messagesByKey.get? k = some m' → s.messagesByKey.get? k = none → m'.attempts = 0

theorem Calm.refl (s : InMemoryOutbox platform) : Calm s s :=
  ⟨fun _ m h => ⟨m, h, .refl m⟩, fun _ _ h h' => by simp [h'] at h⟩

theorem Calm.trans (h : Calm s t) (g : Calm t s') : Calm s s' := by
  refine ⟨fun k m hm => ?_, fun k m' hm' hnone => ?_⟩
  · obtain ⟨n, hn, hmn⟩ := h.kept k m hm
    obtain ⟨m', hm', hnm⟩ := g.kept k n hn
    exact ⟨m', hm', hmn.trans hnm⟩
  · cases hn : t.messagesByKey.get? k with
    | none => exact g.added k m' hm' hn
    | some n =>
      obtain ⟨n', hn', honwards⟩ := g.kept k n hn
      cases hn'.symm.trans hm'
      exact honwards.attempts.trans (h.added k n hn hnone)

theorem calm_setMessage (hm : s.messagesByKey.get? k = some m) (h : Onwards m m') :
    Calm s (s.setMessage k m') := by
  refine ⟨fun j n hn => ?_, fun j n hn hnone => ?_⟩
  · rw [messagesByKey_setMessage, Dict.get?_set]
    split_ifs with hj
    · subst hj
      cases hm.symm.trans hn
      exact ⟨m', rfl, h⟩
    · exact ⟨n, hn, .refl n⟩
  · rw [messagesByKey_setMessage, Dict.get?_set] at hn
    split_ifs at hn with hj
    · subst hj
      simp [hm] at hnone
    · simp [hnone] at hn

theorem calm_transition {principal : Principal} {id token : String} {expected : DeliveryStatus}
    {updates : OutboxMessage platform → OutboxMessage platform} (follows : Follows expected updates)
    (inv : Inv s) (closes : ∀ m, m.dispatchStatus = expected → Onwards m (updates m)) :
    Calm s (transition principal id token expected updates s).2 := by
  rcases transition_cases (Prod.eta (transition principal id token expected updates s)).symm with
    ⟨e, -, hs⟩ | ⟨k, m, m', -, hfind, -, hstatus, hvalid, -, hs⟩
  · rw [hs]
    exact .refl s
  · have hm := (find?_eq_some hfind).1
    obtain ⟨rfl, -⟩ := follows.store inv hm hstatus hvalid
    rw [hs]
    exact calm_setMessage hm (closes m hstatus)

theorem calm_operatorTransition {principal : Principal} {id : String}
    {updates : OutboxMessage platform → OutboxMessage platform} (follows : Follows .uncertain updates)
    (inv : Inv s) (closes : ∀ m, m.dispatchStatus = .uncertain → Onwards m (updates m)) :
    Calm s (operatorTransition principal id updates s).2 := by
  rcases operatorTransition_cases (Prod.eta (operatorTransition principal id updates s)).symm with
    ⟨e, -, hs⟩ | ⟨k, m, m', -, hfind, hstatus, hvalid, -, hs⟩
  · rw [hs]
    exact .refl s
  · have hm := (find?_eq_some hfind).1
    obtain ⟨rfl, -⟩ := follows.store inv hm hstatus hvalid
    rw [hs]
    exact calm_setMessage hm (closes m hstatus)

theorem calm_check {β : Type} {x : Except PyError β} {f : β → InMemoryOutbox.Method platform α}
    (hf : ∀ b, Calm s (f b s).2) : Calm s ((Op.ofExcept x >>= f) s).2 := by
  cases x with
  | error e => exact .refl s
  | ok b => exact hf b

theorem calm_batch {due : Key → OutboxMessage platform → Bool}
    {update : Key → OutboxMessage platform → Except PyError (OutboxMessage platform)}
    {done : List (Key × OutboxMessage platform)} (h : Batch due update s done s')
    (onwards : ∀ k m m', s.messagesByKey.get? k = some m → due k m = true → update k m = .ok m' →
      Onwards m m') : Calm s s' := by
  refine ⟨fun k m hm => ?_, fun k m' hm' hnone => ?_⟩
  · obtain hsame | ⟨n, m', hn, hdue, hupdate, hm'⟩ := h.get? k
    · exact ⟨m, hsame.trans hm, .refl m⟩
    · cases hn.symm.trans hm
      exact ⟨m', hm', onwards k m m' hm hdue hupdate⟩
  · obtain hsame | ⟨n, -, hn, -⟩ := h.get? k
    · simp [hsame.symm.trans hm'] at hnone
    · simp [hn] at hnone

/-- The calls that send no message and put none back. -/
def OutboxCall.isCalm : OutboxCall platform → Bool
  | .markSending .. | .reschedule .. | .resolveUncertainRetry .. => false
  | _ => true

theorem onwards_of_follows {expected : DeliveryStatus}
    {updates : OutboxMessage platform → OutboxMessage platform} (follows : Follows expected updates)
    {target : DeliveryStatus} (status : ∀ m, (updates m).dispatchStatus = target)
    (hne : target ≠ .sending) (opened : target = .pending → expected = .claimed)
    (hclaimed : target ≠ .claimed) (m : OutboxMessage platform) (h : m.dispatchStatus = expected) :
    Onwards m (updates m) := by
  refine .of_move (follows.move m h) (status m ▸ hne) fun ho => ?_
  rw [OutboxMessage.Open, status m] at ho
  exact .inr (h.trans (opened (ho.resolve_right hclaimed)))

theorem OutboxCall.calm_run {c : OutboxCall platform} (h : c.isCalm = true) (inv : Inv s) :
    Calm s (c.run s).2 := by
  cases c with
  | add p event key next id fresh now =>
    refine ⟨fun k m hm => ?_, fun k m' hm' hnone => ?_⟩
    · obtain hsame | ⟨m', -, hfalse⟩ := (OutboxCall.add p event key next id fresh now).leaves_run inv hm
      · exact ⟨m, hsame, .refl m⟩
      · exact hfalse.elim
    · exact (((OutboxCall.add p event key next id fresh now).stepSpec s _ _ inv rfl).2.1.added k m' hm'
        hnone).2
  | claimDue p now limit owner lease type tokens =>
    rw [run]
    rcases claimDue_cases (Prod.eta (InMemoryOutbox.claimDue p now limit owner lease type tokens s)).symm
      with ⟨e, -, hs⟩ | ⟨t, o, done, -, -, -, -, howner, hbatch, -⟩
    · rw [hs]
      exact .refl s
    · refine calm_batch hbatch fun k m m' hm hdue hcopy => ?_
      have hmove := (claimedCopy_spec howner (inv k m hm) hdue hcopy).1
      obtain ⟨until_, -, hcopy⟩ := except_bind_eq_ok.mp hcopy
      cases hcopy
      refine .of_move hmove (by simp) fun _ => ?_
      simp only [claimable, Bool.and_eq_true, Bool.or_eq_true, decide_eq_true_eq] at hdue
      exact hdue.1.2.imp_right And.left
  | markSending => cases h
  | markClaimFailed p id token error =>
    rw [run, snd_single]
    have follows := @follows_errorCopy platform .claimed .failed (by trivial) (by decide) error
    exact calm_transition follows inv
      (onwards_of_follows follows (fun _ => rfl) (by decide) (by decide) (by decide))
  | markPublished p id token publishedAt clock =>
    rw [run, snd_single]
    exact calm_check fun t => calm_transition (follows_publishedCopy t) inv
      (onwards_of_follows (follows_publishedCopy t) (fun _ => rfl) (by decide) (by decide) (by decide))
  | markFailed p id token error =>
    rw [run, snd_single]
    have follows := @follows_errorCopy platform .sending .failed (by trivial) (by decide) error
    exact calm_transition follows inv
      (onwards_of_follows follows (fun _ => rfl) (by decide) (by decide) (by decide))
  | markUncertain p id token error =>
    rw [run, snd_single]
    have follows := @follows_errorCopy platform .sending .uncertain (by trivial) (by decide) error
    exact calm_transition follows inv
      (onwards_of_follows follows (fun _ => rfl) (by decide) (by decide) (by decide))
  | release p id token next =>
    rw [run, snd_single]
    exact calm_check fun t => calm_transition (follows_releasedCopy t) inv
      (onwards_of_follows (follows_releasedCopy t) (fun _ => rfl) (by decide) (by decide) (by decide))
  | reschedule => cases h
  | sweepExpiredSending p now error limit type =>
    rw [run]
    rcases sweepExpiredSending_cases
      (Prod.eta (InMemoryOutbox.sweepExpiredSending p now error limit type s)).symm
      with ⟨e, -, hs⟩ | ⟨t, done, -, -, -, hbatch, -⟩
    · rw [hs]
      exact .refl s
    · refine calm_batch hbatch fun k m m' hm hdue hcopy => ?_
      have follows := @follows_errorCopy platform .sending .uncertain (by trivial) (by decide) error
      have hsending : m.dispatchStatus = .sending := by
        simp only [sweepable, Bool.and_eq_true, decide_eq_true_eq] at hdue
        exact hdue.1.2
      obtain ⟨rfl, -⟩ := follows.store inv hm hsending hcopy
      exact onwards_of_follows follows (fun _ => rfl) (by decide) (by decide) (by decide) m hsending
  | resolveUncertainDelivered p id publishedAt =>
    rw [run, snd_single]
    exact calm_check fun t => calm_operatorTransition (follows_deliveredCopy t) inv
      (onwards_of_follows (follows_deliveredCopy t) (fun _ => rfl) (by decide) (by decide) (by decide))
  | resolveUncertainRetry => cases h

/-- The calls of a transaction that sends no message and puts none back. -/
def CalmCall : StoreCall platform → Prop
  | .outbox o => o.isCalm = true
  | _ => True

theorem StorePath.calm {ok : StoreCall platform → Prop} {u u' : ReminderStores platform}
    (path : StorePath ok u u') (hok : ∀ call, ok call → CalmCall call) (inv : Inv u.outbox) :
    Calm u.outbox u'.outbox :=
  (path.keeps_outbox (P := fun t => Inv t ∧ Calm u.outbox t) (fun o t ho ht =>
    ⟨(o.stepSpec t (o.run t).1 (o.run t).2 ht.1 rfl).1, ht.2.trans (o.calm_run (hok _ ho) ht.1)⟩)
    ⟨inv, .refl _⟩).2

/-- A transaction of calm calls. -/
theorem calm_begin {x : Block platform α} (hx : Through CalmCall x) (principal : Principal)
    {u : ReminderStores platform} (inv : Inv u.outbox) :
    Calm u.outbox (begin_ principal x u).2.outbox :=
  (StorePath.of_through hx principal u).calm (fun _ h => h) inv

/-! ## Transactions that mark one message -/

/-- Only mirror deliveries. -/
def Mirrors : StoreCall platform → Prop
  | .mirrorDelivery .. => True
  | _ => False

theorem outbox_of_mirroring {x : Block platform α} (hx : Through Mirrors x)
    (t : InMemoryReminderTransaction platform) : (x t).2.stores.outbox = t.stores.outbox :=
  outbox_of_mirrors (hx.mono fun call hcall => by
    cases call with
    | mirrorDelivery p id m => exact ⟨p, id, m, rfl⟩
    | _ => exact hcall.elim) t

/-- A block that calls the outbox once, mirrors and commits leaves what the call leaves. -/
theorem marked {f : InMemoryOutbox.Method platform (OutboxMessage platform)}
    {mirroring : OutboxMessage platform → Block platform Unit} (hx : ∀ m, Through Mirrors (mirroring m))
    {t t' : InMemoryReminderTransaction platform} {final : OutboxMessage platform}
    (h : (do
      let m ← store (onOutbox f)
      mirroring m
      commit
      return m : Block platform (OutboxMessage platform)) t = (.ok final, t')) :
    f t.stores.outbox = (.ok final, t'.stores.outbox) ∧ t'.committed = true ∧
      (mirroring final { t with stores := { t.stores with outbox := t'.stores.outbox } }).1 = .ok () := by
  obtain ⟨m, u, hmark, h⟩ := Op.bind_eq_ok h
  obtain ⟨_, v, hmirror, h⟩ := Op.bind_eq_ok h
  obtain ⟨_, w, hcommit, h⟩ := Op.bind_eq_ok h
  cases h
  cases commit_eq_ok hcommit
  obtain ⟨stores, hstores, rfl⟩ := store_cases hmark
  obtain ⟨o, hrun, rfl⟩ := Op.zoom_cases hstores
  have hkept := outbox_of_mirroring (hx final) { t with stores := { t.stores with outbox := o } }
  rw [hmirror] at hkept
  exact ⟨by rw [hrun, hkept], rfl, by rw [hkept, hmirror]⟩

theorem through_mirror_only (principal : Principal) (message : OutboxMessage platform) :
    Through Mirrors (mirror principal message) := through_mirror (fun _ _ _ => trivial) _ _

theorem through_mirrorTerminal_only (principal : Principal) (message : OutboxMessage platform) :
    Through Mirrors (mirrorTerminal principal message) :=
  through_mirrorIfScheduled (fun _ _ _ => trivial) _ _

/-- A transition that returned moved the message it found under the token. -/
theorem transition_spec {principal : Principal} {id token : String} {expected : DeliveryStatus}
    {updates : OutboxMessage platform → OutboxMessage platform} (follows : Follows expected updates)
    (inv : Inv s) (h : transition principal id token expected updates s = (.ok m', s')) :
    ∃ k m, s.find? principal id = some (k, m) ∧ m.claimToken = some token ∧
      m.dispatchStatus = expected ∧ m' = updates m ∧ s' = s.setMessage k m' := by
  obtain ⟨e, he, -⟩ | ⟨k, m, n, -, hfind, htoken, hstatus, hvalid, hr, hs⟩ := transition_cases h
  · cases he
  · cases hr
    obtain ⟨rfl, -⟩ := follows.store inv (find?_eq_some hfind).1 hstatus hvalid
    exact ⟨k, m, hfind, htoken, hstatus, rfl, hs⟩

/-- What a committed mark did: it moved the message stored under `k` from `old` to `final`. -/
structure Marked (principal : Principal) (id : String) (s s' : ReminderStores platform) (k : Key)
    (old final : OutboxMessage platform) : Prop where
  found : s.outbox.find? principal id = some (k, old)
  stored : s'.outbox = s.outbox.setMessage k final
  same : SameIdentity old final

theorem Marked.get? {principal : Principal} {id : String} {u u' : ReminderStores platform}
    {old final : OutboxMessage platform} (h : Marked principal id u u' k old final) :
    u.outbox.messagesByKey.get? k = some old := (find?_eq_some h.found).1

/-- The stores after a transaction that committed. -/
theorem committed_of_begin {principal : Principal} {x : Block platform α} (hx : Forward x)
    {u u' : ReminderStores platform} {a : α} (h : begin_ principal x u = (.ok a, u')) :
    ∃ t, principal.trusted = true ∧ x (enter u) = (.ok a, t) ∧
      u' = if t.committed then t.stores else u := by
  obtain ⟨e, he, -⟩ | ⟨b, t, trusted, hbody, hr, hs⟩ := begin_cases hx h
  · cases he
  · cases hr
    exact ⟨t, trusted, hbody, hs⟩

/-- The message names a reminder that is scheduled. -/
def Scheduled (principal : Principal) (s : ReminderScheduler) (m : OutboxMessage platform) : Prop :=
  ∃ subject, subjectOf m = some subject ∧ (s.find? principal subject).isSome = true

theorem scheduled_of_mirror {principal : Principal} {t : InMemoryReminderTransaction platform}
    (h : (mirror principal m t).1 = .ok ()) : Scheduled principal t.stores.scheduler m := by
  unfold mirror at h
  cases hsubject : subjectOf m with
  | none =>
    rw [hsubject] at h
    cases h
  | some subject =>
    rw [hsubject] at h
    dsimp only at h
    refine ⟨subject, hsubject, ?_⟩
    rcases hb : store (onScheduler (ReminderScheduler.mirrorDelivery principal subject m)) t
      with ⟨_ | job, t'⟩
    · rw [Op.bind_error hb] at h
      cases h
    · obtain ⟨stores, hstores, -⟩ := store_cases hb
      obtain ⟨o, hrun, -⟩ := Op.zoom_cases hstores
      obtain ⟨e, he, -⟩ | ⟨k, j, -, -, -, hfind, -⟩ := ReminderScheduler.mirrorDelivery_cases hrun
      · cases he
      · rw [hfind]
        rfl

section Marks

variable {principal : Principal} {u u' : ReminderStores platform} {message final : OutboxMessage platform}
  {now : Instant}

open DispatchDueReminders

theorem confirmSending_spec (h : begin_ principal (confirmSending principal message now) u = (.ok final, u'))
    (inv : Inv u.outbox) : ∃ k old token, Marked principal message.id u u' k old final ∧
      old.claimToken = some token ∧ message.claimToken = some token ∧ old.dispatchStatus = .claimed ∧
      final = sendingCopy now old ∧ Scheduled principal u.scheduler old := by
  have hforward := (@through_confirmSending platform (fun _ => True) (fun _ _ _ => trivial) principal now
    message fun _ _ => trivial).forward
  obtain ⟨t, -, hbody, hs⟩ := committed_of_begin hforward h
  obtain ⟨token, htoken, hbody⟩ := Op.ofExcept_bind_eq_ok hbody
  obtain ⟨hrun, hcommitted, hmirrored⟩ := marked (fun m => through_mirror_only principal m) hbody
  rw [hcommitted, if_pos rfl] at hs
  subst hs
  unfold markSending at hrun
  rw [DateTime.canonicalUtc_ofInstant, Op.ofExcept_ok_bind] at hrun
  obtain ⟨k, old, hfind, hstored, hstatus, rfl, hs⟩ := transition_spec (follows_sendingCopy now) inv hrun
  refine ⟨k, old, token, ⟨hfind, hs, sameIdentity_of_move ((follows_sendingCopy now).move old hstatus)⟩,
    hstored, (claimTokenOf_eq_ok.mp htoken).1, hstatus, rfl, ?_⟩
  exact scheduled_of_mirror hmirrored

/-- A recorded result moves the send it belongs to, and puts it back only after a transient result of an
attempt that was not the last one. -/
theorem recordOutcome_spec {result : NotificationResult} {token : String} (inv : Inv s)
    (h : recordOutcome principal message result now token s = (.ok final, s')) :
    ∃ k old, s.find? principal message.id = some (k, old) ∧ old.claimToken = some token ∧
      old.dispatchStatus = .sending ∧ s' = s.setMessage k final ∧ SameIdentity old final ∧
      final.attempts = old.attempts ∧ (final.Open → final.dispatchStatus = .pending ∧
        result.outcome = .knownTransient ∧ message.attempts < MAX_DELIVERY_ATTEMPTS) := by
  have hmoved : ∀ {updates : OutboxMessage platform → OutboxMessage platform} {target : DeliveryStatus}
      (follows : Follows .sending updates), (∀ m, (updates m).dispatchStatus = target) →
      transition principal message.id token .sending updates s = (.ok final, s') →
      (target = .claimed → False) → (target = .pending → result.outcome = .knownTransient ∧
        message.attempts < MAX_DELIVERY_ATTEMPTS) →
      ∃ k old, s.find? principal message.id = some (k, old) ∧ old.claimToken = some token ∧
        old.dispatchStatus = .sending ∧ s' = s.setMessage k final ∧ SameIdentity old final ∧
        final.attempts = old.attempts ∧ (final.Open → final.dispatchStatus = .pending ∧
          result.outcome = .knownTransient ∧ message.attempts < MAX_DELIVERY_ATTEMPTS) := by
    intro updates target follows status hrun hclaimed hpending
    obtain ⟨k, old, hfind, htoken, hstatus, rfl, hs⟩ := transition_spec follows inv hrun
    have hmove := follows.move old hstatus
    refine ⟨k, old, hfind, htoken, hstatus, hs, sameIdentity_of_move hmove, ?_, fun ho => ?_⟩
    · simpa [hstatus] using hmove.attempts
    · rw [OutboxMessage.Open, status old] at ho
      have htarget := ho.resolve_right hclaimed
      exact ⟨(status old).trans htarget, hpending htarget⟩
  unfold recordOutcome at h
  cases hresult : result.outcome with
  | success =>
    rw [hresult] at h hmoved
    simp only [markPublished, Option.getD_some, DateTime.canonicalUtc_ofInstant,
      Op.ofExcept_ok_bind] at h
    exact hmoved (follows_publishedCopy now) (fun _ => rfl) h (by simp) (by simp)
  | knownTransient =>
    rw [hresult] at h hmoved
    dsimp only at h
    split_ifs at h with hlast
    · exact hmoved (follows_errorCopy (by trivial) (by decide) _) (fun _ => rfl) h (by simp) (by simp)
    · unfold reschedule at h
      rw [DateTime.canonicalUtc_ofInstant, Op.ofExcept_ok_bind] at h
      exact hmoved (follows_rescheduledCopy _ _) (fun _ => rfl) h (by simp)
        fun _ => ⟨rfl, not_le.mp hlast⟩
  | permanent =>
    rw [hresult] at h hmoved
    exact hmoved (follows_errorCopy (by trivial) (by decide) _) (fun _ => rfl) h (by simp) (by simp)
  | unknownOutcome =>
    rw [hresult] at h hmoved
    exact hmoved (follows_errorCopy (by trivial) (by decide) _) (fun _ => rfl) h (by simp) (by simp)

theorem recordResult_spec {result : NotificationResult}
    (h : begin_ principal (recordResult principal message result now) u = (.ok final, u'))
    (inv : Inv u.outbox) : ∃ k old token, Marked principal message.id u u' k old final ∧
      old.claimToken = some token ∧ message.claimToken = some token ∧ old.dispatchStatus = .sending ∧
      final.attempts = old.attempts ∧ (final.Open → final.dispatchStatus = .pending ∧
        result.outcome = .knownTransient ∧ message.attempts < MAX_DELIVERY_ATTEMPTS) := by
  have hforward := (@through_recordResult platform (fun _ => True) (fun _ _ _ => trivial) principal now
    message result fun _ _ => trivial).forward
  obtain ⟨t, -, hbody, hs⟩ := committed_of_begin hforward h
  obtain ⟨token, htoken, hbody⟩ := Op.ofExcept_bind_eq_ok hbody
  obtain ⟨hrun, hcommitted, -⟩ := marked (fun m => through_mirrorTerminal_only principal m) hbody
  rw [hcommitted, if_pos rfl] at hs
  subst hs
  obtain ⟨k, old, hfind, hstored, hstatus, hs, same, hattempts, hopen⟩ := recordOutcome_spec inv hrun
  exact ⟨k, old, token, ⟨hfind, hs, same⟩, hstored, (claimTokenOf_eq_ok.mp htoken).1, hstatus,
    hattempts, hopen⟩

theorem operatorTransition_spec {id : String}
    {updates : OutboxMessage platform → OutboxMessage platform} (follows : Follows .uncertain updates)
    (inv : Inv s) (h : operatorTransition principal id updates s = (.ok m', s')) :
    ∃ k m, s.find? principal id = some (k, m) ∧ m.dispatchStatus = .uncertain ∧ m' = updates m ∧
      s' = s.setMessage k m' := by
  obtain ⟨e, he, -⟩ | ⟨k, m, n, -, hfind, hstatus, hvalid, hr, hs⟩ := operatorTransition_cases h
  · cases he
  · cases hr
    obtain ⟨rfl, -⟩ := follows.store inv (find?_eq_some hfind).1 hstatus hvalid
    exact ⟨k, m, hfind, hstatus, rfl, hs⟩

/-- The message an operator names is the one the outbox finds. -/
theorem find?_listed {id : String} : ((s.messagesByKey.entries.filter fun e =>
    e.1.1 = principal.tenantId).map Prod.snd).find? (fun m => m.id = id) =
      (s.find? principal id).map Prod.snd := by
  unfold InMemoryOutbox.find?
  induction s.messagesByKey.entries with
  | nil => rfl
  | cons e rest ih =>
    by_cases htenant : e.1.1 = principal.tenantId
    · by_cases hid : e.2.id = id
      · simp [htenant, hid]
      · simp [htenant, hid, ih]
    · simp [htenant, ih]

/-- An operator's resolution moves an uncertain message, and puts it back only before its last
attempt. -/
theorem resolveUncertain_spec {messageId resolution : String}
    (h : begin_ principal (@resolveUncertain platform principal messageId resolution now) u =
      (.ok final, u')) (inv : Inv u.outbox) :
    ∃ k old, Marked principal messageId u u' k old final ∧ old.dispatchStatus = .uncertain ∧
      final.attempts = old.attempts ∧ (final.Open → final.dispatchStatus = .pending ∧
        old.attempts < MAX_DELIVERY_ATTEMPTS) := by
  have hforward := (@through_resolveUncertain platform (fun _ => True) (fun _ _ _ => trivial) principal
    now messageId resolution fun _ _ => trivial).forward
  obtain ⟨t, trusted, hbody, hs⟩ := committed_of_begin hforward h
  obtain ⟨listed, v, hlist, hbody⟩ := Op.bind_eq_ok hbody
  obtain ⟨rfl, rfl⟩ : (u.outbox.messagesByKey.entries.filter fun e =>
      e.1.1 = principal.tenantId).map Prod.snd = listed ∧ enter u = v := by
    obtain ⟨stores, hstores, rfl⟩ := store_cases hlist
    obtain ⟨o, hrun, rfl⟩ := Op.zoom_cases hstores
    unfold listForTenant at hrun
    rw [requireTrustedPrincipal_of_trusted trusted] at hrun
    cases hrun
    exact ⟨rfl, rfl⟩
  obtain ⟨_, -, hbody⟩ := Op.ofExcept_bind_eq_ok hbody
  obtain ⟨_, hlimit, hbody⟩ := Op.ofExcept_bind_eq_ok hbody
  rw [require_eq_ok, find?_listed] at hlimit
  dsimp only at hbody
  have hmoved : ∀ {f : InMemoryOutbox.Method platform (OutboxMessage platform)}
      {updates : OutboxMessage platform → OutboxMessage platform} (follows : Follows .uncertain updates)
      {target : DeliveryStatus}, (∀ m, (updates m).dispatchStatus = target) →
      f u.outbox = operatorTransition principal messageId updates u.outbox →
      (do let message ← store (onOutbox f)
          mirrorTerminal principal message
          commit
          return message : Block platform (OutboxMessage platform)) (enter u) = (.ok final, t) →
      (target = .claimed → False) → (target = .pending → resolution = "retry") →
      ∃ k old, Marked principal messageId u u' k old final ∧ old.dispatchStatus = .uncertain ∧
        final.attempts = old.attempts ∧ (final.Open → final.dispatchStatus = .pending ∧
          old.attempts < MAX_DELIVERY_ATTEMPTS) := by
    intro f updates follows target status hf hblock hclaimed hpending
    obtain ⟨hrun, hcommitted, -⟩ := marked (fun m => through_mirrorTerminal_only principal m) hblock
    rw [hcommitted, if_pos rfl] at hs
    subst hs
    obtain ⟨k, old, hfind, hstatus, rfl, hstored⟩ :=
      operatorTransition_spec follows inv (hf.symm.trans hrun)
    have hmove := follows.move old hstatus
    refine ⟨k, old, ⟨hfind, hstored, sameIdentity_of_move hmove⟩, hstatus,
      by simpa [hstatus] using hmove.attempts, fun ho => ?_⟩
    rw [OutboxMessage.Open, status old] at ho
    have htarget := ho.resolve_right hclaimed
    rw [hfind] at hlimit
    exact ⟨(status old).trans htarget, by simpa [hpending htarget] using hlimit⟩
  split_ifs at hbody with hdelivered hretry
  · exact hmoved (follows_deliveredCopy now)
      (fun _ => rfl) (by rw [resolveUncertainDelivered, DateTime.canonicalUtc_ofInstant]; rfl) hbody
      (by simp) (by simp)
  · exact hmoved (follows_retryCopy now) (fun _ => rfl)
      (by rw [resolveUncertainRetry, DateTime.canonicalUtc_ofInstant]; rfl) hbody (by simp)
      fun _ => hretry
  · cases hbody

end Marks

end PersonalAssistant
