import PersonalAssistant.Dispatch.Mirrors
import PersonalAssistant.Dispatch.Sends

/-!
# Messages that fail before a send

`_claim` fails a claimed message that it cannot mirror, and `_record_malformed` one whose request cannot
be built. Both return whenever the message was never sent; the checks on a failed message ask for no
more.
-/
namespace PersonalAssistant

open Lib InMemoryOutbox InMemoryReminderTransaction ReminderStores Relation

variable {platform : Platform} {s s' : InMemoryOutbox platform} {k : Key} {m m' : OutboxMessage platform}
  {principal : Principal}

/-! ## Claims that fail -/

/-- A claim that was never sent can fail. -/
theorem failedCopy_validates (hs : Sound k m) (claimed : m.dispatchStatus = .claimed)
    (attempts : m.attempts = 0) (error : DeliveryError) :
    (errorCopy .failed error m).modelValidate = .ok (errorCopy .failed error m) := by
  have hn : (errorCopy .failed error m).Normal :=
    ⟨hs.normal.id, hs.normal.tenantId, hs.normal.idempotencyKey, by simp [errorCopy, clearClaim],
      by simp [errorCopy, clearClaim], hs.normal.tenantId_ne, hs.normal.idempotencyKey_ne⟩
  have hmeta := hs.metadata
  simp only [OutboxMessage.StateMetadata, OutboxMessage.requireStateMetadata, claimed] at hmeta
  split_ifs at hmeta with _ hstamps
  have hok : (errorCopy .failed error m).requireStateMetadata = .ok () := by
    simp_all [OutboxMessage.requireStateMetadata, errorCopy, clearClaim, OutboxMessage.retainsClaim]
  rw [hn.modelValidate, hok]
  rfl

theorem requireTrustedPrincipal_error {e : PyError} (h : requireTrustedPrincipal principal = .error e) :
    e.isValueError = false := by
  unfold requireTrustedPrincipal at h
  split_ifs at h
  cases h
  rfl

/-- Only the checks on the new message make a transition raise a value error. -/
theorem transition_error {id token : String} {expected : DeliveryStatus}
    {updates : OutboxMessage platform → OutboxMessage platform} {e : PyError}
    (h : transition principal id token expected updates s = (.error e, s')) :
    e.isValueError = false ∨ ∃ k m, s.find? principal id = some (k, m) ∧ m.claimToken = some token ∧
      m.dispatchStatus = expected ∧ (updates m).modelValidate = .error e := by
  unfold transition at h
  obtain ⟨e', he, ho⟩ | ⟨_, -, h⟩ := Op.ofExcept_bind_cases h
  · cases ho
    exact .inl (requireTrustedPrincipal_error he)
  obtain ⟨e', he, ho⟩ | ⟨_, -, h⟩ := Op.ofExcept_bind_cases h
  · cases ho
    obtain ⟨-, rfl⟩ := require_eq_error.mp he
    exact .inl rfl
  rw [Op.get_bind] at h
  cases hfind : s.find? principal id with
  | none =>
    simp only [hfind] at h
    cases h
    exact .inl rfl
  | some entry =>
    obtain ⟨k, m⟩ := entry
    simp only [hfind] at h
    obtain ⟨e', he, ho⟩ | ⟨_, htoken, h⟩ := Op.ofExcept_bind_cases h
    · cases ho
      obtain ⟨-, rfl⟩ := require_eq_error.mp he
      exact .inl rfl
    obtain ⟨e', he, ho⟩ | ⟨_, hstatus, h⟩ := Op.ofExcept_bind_cases h
    · cases ho
      obtain ⟨-, rfl⟩ := require_eq_error.mp he
      exact .inl rfl
    obtain ⟨e', he, ho⟩ | ⟨updated, -, h⟩ := Op.ofExcept_bind_cases h
    · cases ho
      exact .inr ⟨k, m, rfl, by simpa using htoken, by simpa using hstatus, he⟩
    · cases h

theorem claimTokenOf_error {e : PyError} (h : claimTokenOf m = .error e) : e.isValueError = false := by
  unfold claimTokenOf at h
  split at h
  · cases h
    rfl
  · split_ifs at h
    cases h
    rfl

open DispatchDueReminders in
/-- Recording a message as malformed does not meet the checks on a failed message, when the message was
never sent: it returns, or the claim is lost. -/
theorem recordMalformed_error {u : ReminderStores platform} (inv : Inv u.outbox)
    (jobs : JobsValid platform u.scheduler) {message : OutboxMessage platform} {now : Instant}
    (unsent : ∀ k m token, u.outbox.messagesByKey.get? k = some m → m.claimToken = some token →
      message.claimToken = some token → m.dispatchStatus = .claimed → m.attempts = 0) {e : PyError}
    (h : (begin_ principal (recordMalformed principal message now) u).1 = .error e) :
    e.isValueError = false := by
  unfold begin_ at h
  cases htrusted : requireTrustedPrincipal principal with
  | error e' =>
    simp only [htrusted] at h
    cases h
    exact requireTrustedPrincipal_error htrusted
  | ok _ =>
    have trusted := requireTrustedPrincipal_eq_ok.mp htrusted
    rcases hbody : recordMalformed principal message now (enter u) with ⟨e' | a, t⟩
    · simp only [htrusted, hbody] at h
      cases h
      unfold recordMalformed at hbody
      obtain ⟨e', he, ho⟩ | ⟨token, htoken, hbody⟩ := Op.ofExcept_bind_cases hbody
      · cases ho
        exact claimTokenOf_error he
      rcases hstore : store (onOutbox (InMemoryOutbox.markClaimFailed principal message.id token
        (invalidPayloadError now))) (enter u) with ⟨e' | failed, v⟩
      · rw [Op.bind_error hstore] at hbody
        cases hbody
        obtain ⟨stores, hstores, -⟩ := store_cases hstore
        obtain ⟨o, hrun, -⟩ := Op.zoom_cases hstores
        obtain hfalse | ⟨k, m, hfind, hstored, hstatus, hinvalid⟩ := transition_error hrun
        · exact hfalse
        · have hget := (find?_eq_some hfind).1
          have hzero := unsent k m token hget hstored (claimTokenOf_eq_ok.mp htoken).1 hstatus
          rw [failedCopy_validates (inv k m hget) hstatus hzero] at hinvalid
          cases hinvalid
      · -- behind the mark nothing raises
        rw [Op.bind_ok hstore] at hbody
        obtain ⟨stores, hstores, rfl⟩ := store_cases hstore
        obtain ⟨o, hrun, rfl⟩ := Op.zoom_cases hstores
        obtain ⟨k, old, hfind, -, hstatus, rfl, -⟩ :=
          transition_spec (follows_errorCopy (by trivial) (by decide) (invalidPayloadError now)) inv hrun
        obtain ⟨hget, htenant, -⟩ := find?_eq_some hfind
        obtain ⟨s', hmirror, -⟩ := @mirrorIfScheduled_returns platform
          (errorCopy .failed (invalidPayloadError now) old) principal trusted
          ((inv k old hget).tenant.trans htenant)
          { enter u with stores := { (enter u).stores with outbox := o } } jobs
        rw [mirrorPreIoFailed, Op.bind_ok hmirror] at hbody
        simp [Op.bind_apply, commit, withScheduler, enter] at hbody
    · simp only [htrusted, hbody] at h
      cases h

/-! ## The loop of a claim -/

/-- Claimed messages that the loop of `_claim` still has to mirror. -/
structure ToMirror (principal : Principal) (u : ReminderStores platform)
    (rest : List (Key × OutboxMessage platform)) : Prop where
  inv : Inv u.outbox
  ids : MessageIds u.outbox
  jobs : JobsValid platform u.scheduler
  nodup : (rest.map Prod.fst).Nodup
  stored : ∀ e ∈ rest, u.outbox.messagesByKey.get? e.1 = some e.2
  tenant : ∀ e ∈ rest, e.1.1 = principal.tenantId
  claimed : ∀ e ∈ rest, e.2.dispatchStatus = .claimed
  scheduled : ∀ e ∈ rest, 0 < e.2.attempts → Scheduled principal u.scheduler e.2

theorem find?_of_get? (ids : MessageIds s) (inv : Inv s) (hm : s.messagesByKey.get? k = some m)
    (tenant : k.1 = principal.tenantId) : s.find? principal m.id = some (k, m) := by
  have hsome : (s.find? principal m.id).isSome = true := by
    unfold InMemoryOutbox.find?
    rw [List.find?_isSome]
    exact ⟨(k, m), Dict.mem_entries.mpr hm, by simp [tenant]⟩
  obtain ⟨⟨j, n⟩, hfind⟩ := Option.isSome_iff_exists.mp hsome
  obtain ⟨hn, htenant, hid⟩ := find?_eq_some hfind
  have hreference : n.reference = m.reference := Prod.ext
    ((inv j n hn).tenant.trans (htenant.trans (tenant.symm.trans (inv k m hm).tenant.symm))) hid
  obtain rfl := eq_of_reference ids inv hn hm hreference
  cases hn.symm.trans hm
  exact hfind

theorem claimToken_of_claimed (hs : Sound k m) (h : m.dispatchStatus = .claimed) :
    ∃ token, m.claimToken = some token ∧ token ≠ "" := by
  have hmeta := hs.metadata
  simp only [OutboxMessage.StateMetadata, OutboxMessage.requireStateMetadata, h] at hmeta
  split_ifs at hmeta with hlacks
  cases htoken : m.claimToken with
  | none => simp [OutboxMessage.lacksClaim, OutboxMessage.isBlank, htoken] at hlacks
  | some token =>
    refine ⟨token, rfl, ?_⟩
    rintro rfl
    simp [OutboxMessage.lacksClaim, OutboxMessage.isBlank, htoken] at hlacks

namespace ToMirror

variable {u : ReminderStores platform} {e : Key × OutboxMessage platform}
  {rest : List (Key × OutboxMessage platform)}

theorem tail (h : ToMirror principal u (e :: rest)) : ToMirror principal u rest where
  inv := h.inv
  ids := h.ids
  jobs := h.jobs
  nodup := (List.nodup_cons.mp h.nodup).2
  stored f hf := h.stored f (List.mem_cons_of_mem _ hf)
  tenant f hf := h.tenant f (List.mem_cons_of_mem _ hf)
  claimed f hf := h.claimed f (List.mem_cons_of_mem _ hf)
  scheduled f hf := h.scheduled f (List.mem_cons_of_mem _ hf)

theorem withScheduler (h : ToMirror principal u rest) {s : ReminderScheduler}
    (kept : JobsKept u.scheduler s) (jobs : JobsValid platform s) :
    ToMirror principal { u with scheduler := s } rest :=
  { h with jobs, scheduled := fun f hf hpos => (h.scheduled f hf hpos).kept kept }

/-- Another message than those that are left was stored. -/
theorem setMessage (h : ToMirror principal u (e :: rest)) {final : OutboxMessage platform}
    (inv : Inv (u.outbox.setMessage e.1 final)) (same : SameIdentity e.2 final) :
    ToMirror principal { u with outbox := u.outbox.setMessage e.1 final } rest := by
  obtain ⟨hne, -⟩ := List.nodup_cons.mp h.nodup
  refine { h.tail with inv, ids := ?_, stored := fun f hf => ?_ }
  · refine Indexes.rewrite h.ids fun j => ?_
    simp only [messagesByKey_setMessage, Dict.get?_set]
    split_ifs with hj
    · subst hj
      simp [h.stored e List.mem_cons_self, same.id]
    · rfl
  · have hf' : f.1 ≠ e.1 := fun heq => hne (heq ▸ List.mem_map_of_mem hf)
    simpa [Dict.get?_set_of_ne _ _ hf'] using h.stored f (List.mem_cons_of_mem _ hf)

end ToMirror

/-- A claimed message without a scheduled reminder fails, and the others are left as they are. -/
theorem failClaimed_returns (trusted : principal.trusted = true)
    {t : InMemoryReminderTransaction platform} {e : Key × OutboxMessage platform}
    {rest : List (Key × OutboxMessage platform)} (h : ToMirror principal t.stores (e :: rest))
    (missing : ¬ Scheduled principal t.stores.scheduler e.2) (now : Instant) :
    ∃ failed u, DispatchDueReminders.failClaimed principal now e.2 t = (.ok failed, { t with stores := u }) ∧
      failed.attempts = 0 ∧ ToMirror principal u rest := by
  have hget := h.stored e List.mem_cons_self
  have hclaimed := h.claimed e List.mem_cons_self
  have hs := h.inv e.1 e.2 hget
  have hzero : e.2.attempts = 0 := by
    by_contra hne
    exact missing (h.scheduled e List.mem_cons_self (Nat.pos_of_ne_zero hne))
  obtain ⟨token, htoken, hne⟩ := claimToken_of_claimed hs hclaimed
  have hfind := @find?_of_get? platform t.stores.outbox e.1 e.2 principal h.ids h.inv hget
    (h.tenant e List.mem_cons_self)
  have hmark : InMemoryOutbox.markClaimFailed principal e.2.id token (invalidPayloadError now)
      t.stores.outbox = _ := transition_eq_ok trusted hne hfind htoken hclaimed
    (failedCopy_validates hs hclaimed hzero (invalidPayloadError now))
  have follows := @follows_errorCopy platform .claimed .failed (by trivial) (by decide)
    (invalidPayloadError now)
  obtain ⟨-, hinv, -⟩ := follows.store h.inv hget hclaimed
    (failedCopy_validates hs hclaimed hzero (invalidPayloadError now))
  have htail := h.setMessage hinv (sameIdentity_of_move (follows.move e.2 hclaimed))
  obtain ⟨s', hmirror, hkept, hjobs⟩ := @mirrorIfScheduled_returns platform
    (errorCopy .failed (invalidPayloadError now) e.2) principal trusted
    (hs.tenant.trans (h.tenant e List.mem_cons_self))
    { t with stores := { t.stores with
        outbox := t.stores.outbox.setMessage e.1 (errorCopy .failed (invalidPayloadError now) e.2) } }
    htail.jobs
  refine ⟨errorCopy .failed (invalidPayloadError now) e.2, _, ?_, hzero, htail.withScheduler hkept hjobs⟩
  have hstore : store (onOutbox (InMemoryOutbox.markClaimFailed principal e.2.id token
      (invalidPayloadError now))) t = (.ok (errorCopy .failed (invalidPayloadError now) e.2), { t with
        stores := { t.stores with
          outbox := t.stores.outbox.setMessage e.1 (errorCopy .failed (invalidPayloadError now) e.2) } }) := by
    simp only [store, onOutbox, Op.zoom_apply, hmark]
  unfold DispatchDueReminders.failClaimed
  rw [claimTokenOf_eq_ok.mpr ⟨htoken, hne⟩, Op.ofExcept_ok_bind, Op.bind_ok hstore, mirrorPreIoFailed,
    Op.bind_ok hmirror]
  rfl

/-- The loop of a claim returns, and fails only messages that were never sent. -/
theorem mirrorClaimed_returns (trusted : principal.trusted = true) (now : Instant)
    (rest : List (Key × OutboxMessage platform)) (t : InMemoryReminderTransaction platform)
    (h : ToMirror principal t.stores rest) :
    ∃ handed failed u, DispatchDueReminders.mirrorClaimed principal now (rest.map Prod.snd) t =
        (.ok (handed, failed), { t with stores := u }) ∧ ∀ m ∈ failed, m.attempts = 0 := by
  induction rest generalizing t with
  | nil => exact ⟨[], [], t.stores, rfl, by simp⟩
  | cons e rest ih =>
    have tenant : e.2.tenantId = principal.tenantId :=
      (h.inv e.1 e.2 (h.stored e List.mem_cons_self)).tenant.trans (h.tenant e List.mem_cons_self)
    unfold DispatchDueReminders.mirrorClaimed
    obtain ⟨-, subject, k, job, -, hfind, hmirror⟩ | ⟨hmissing, error, hmirror, hcaught⟩ :=
      mirror_spec trusted tenant h.jobs
    · have hjob := (ReminderScheduler.find?_eq_some hfind).1
      have hvalid := h.jobs k job hjob
      have hkept : JobsKept t.stores.scheduler (t.stores.scheduler.setJob k (job.mirrored e.2)) :=
        .setJob hjob rfl
      have htail := h.tail.withScheduler hkept
        (h.jobs.setJob ⟨hvalid.timezone, hvalid.sourceEventId, hvalid.payloadFingerprint⟩)
      obtain ⟨handed, failed, u, hrun, hzero⟩ := ih (withScheduler t _) htail
      refine ⟨e.2 :: handed, failed, u, ?_, hzero⟩
      simp only [List.map_cons, Op.bind_apply, Op.handle, hmirror, hrun, Op.pure_apply]
      rfl
    · obtain ⟨final, u, hfail, hfinal, htail⟩ := failClaimed_returns trusted h hmissing now
      obtain ⟨handed, failed, u', hrun, hzero⟩ := ih { t with stores := u } htail
      refine ⟨handed, final :: failed, u', ?_, by simpa [hfinal] using hzero⟩
      simp only [List.map_cons, Op.bind_apply, Op.handle, hmirror, hcaught, if_true, hfail, hrun,
        Op.pure_apply]

end PersonalAssistant
