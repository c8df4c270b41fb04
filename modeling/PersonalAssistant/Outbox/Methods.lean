import PersonalAssistant.Outbox.InMemory

/-!
# What each outbox method can do

One inversion lemma per method: it raised and changed nothing, or it stored exactly the messages it
returns. Everything else about the outbox is derived from these.
-/
namespace PersonalAssistant

open Lib

namespace InMemoryOutbox

variable {platform : Platform} {s s' : InMemoryOutbox platform}

/-! ## Batches -/

/-- Store a list of updated messages in order. -/
def setMessages (s : InMemoryOutbox platform) (done : List (Key × OutboxMessage platform)) :
    InMemoryOutbox platform :=
  done.foldl (fun s e => s.setMessage e.1 e.2) s

theorem get?_setMessages_of_not_mem {done : List (Key × OutboxMessage platform)} {k : Key}
    (h : k ∉ done.map Prod.fst) :
    (s.setMessages done).messagesByKey.get? k = s.messagesByKey.get? k := by
  induction done generalizing s with
  | nil => rfl
  | cons e done ih =>
    simp only [List.map_cons, List.mem_cons, not_or] at h
    rw [setMessages, List.foldl_cons, ← setMessages, ih h.2, messagesByKey_setMessage,
      Dict.get?_set_of_ne _ _ h.1]

theorem get?_setMessages_of_mem {done : List (Key × OutboxMessage platform)}
    (hn : (done.map Prod.fst).Nodup) {e : Key × OutboxMessage platform} (h : e ∈ done) :
    (s.setMessages done).messagesByKey.get? e.1 = some e.2 := by
  induction done generalizing s with
  | nil => cases h
  | cons f done ih =>
    simp only [List.map_cons, List.nodup_cons] at hn
    rw [setMessages, List.foldl_cons, ← setMessages]
    rcases List.mem_cons.mp h with rfl | h
    · rw [get?_setMessages_of_not_mem hn.1, messagesByKey_setMessage, Dict.get?_set_self]
    · exact ih hn.2 h

@[simp] theorem setMessages_indexes (s : InMemoryOutbox platform)
    (done : List (Key × OutboxMessage platform)) :
    (s.setMessages done).keyByMessageId = s.keyByMessageId ∧
      (s.setMessages done).keyByEventId = s.keyByEventId ∧
      (s.setMessages done).fingerprints = s.fingerprints := by
  induction done generalizing s with
  | nil => exact ⟨rfl, rfl, rfl⟩
  | cons e done ih => exact ih (s.setMessage e.1 e.2)

section Batch

variable {due : Key → OutboxMessage platform → Bool}
  {update : Key → OutboxMessage platform → Except PyError (OutboxMessage platform)} {limit : Int}

/-- `done` are updates of due candidates, in the order of the candidates. -/
structure Updated (due : Key → OutboxMessage platform → Bool)
    (update : Key → OutboxMessage platform → Except PyError (OutboxMessage platform))
    (cs done : List (Key × OutboxMessage platform)) : Prop where
  keys : (done.map Prod.fst).Sublist (cs.map Prod.fst)
  each : ∀ e ∈ done, ∃ m, (e.1, m) ∈ cs ∧ due e.1 m = true ∧ update e.1 m = .ok e.2

theorem Updated.nil {cs : List (Key × OutboxMessage platform)} : Updated due update cs [] :=
  ⟨by simp, by simp⟩

theorem Updated.skip {c : Key × OutboxMessage platform}
    {cs done : List (Key × OutboxMessage platform)} (h : Updated due update cs done) :
    Updated due update (c :: cs) done :=
  ⟨h.keys.trans (by simp), fun e he => by
    obtain ⟨m, hm, hd⟩ := h.each e he
    exact ⟨m, List.mem_cons_of_mem _ hm, hd⟩⟩

theorem Updated.take {k : Key} {m m' : OutboxMessage platform}
    {cs done : List (Key × OutboxMessage platform)} (h : Updated due update cs done)
    (hd : due k m = true) (hu : update k m = .ok m') :
    Updated due update ((k, m) :: cs) ((k, m') :: done) := by
  refine ⟨by simpa using h.keys, fun e he => ?_⟩
  rcases List.mem_cons.mp he with rfl | he
  · exact ⟨m, by simp, hd, hu⟩
  · exact h.skip.each e he

/-- The loop stores updates of due candidates and returns them, or stops at a failing update. -/
theorem forEachDue_cases {cs : List (Key × OutboxMessage platform)}
    {acc : List (OutboxMessage platform)} {r : Except PyError (List (OutboxMessage platform))}
    (h : forEachDue due update limit cs acc s = (r, s')) :
    ∃ done, Updated due update cs done ∧ s' = s.setMessages done ∧
      (r = .ok (acc ++ done.map Prod.snd) ∨
        ∃ e k m, r = .error e ∧ (k, m) ∈ cs ∧ due k m = true ∧ update k m = .error e) := by
  induction cs generalizing s acc with
  | nil =>
    simp only [forEachDue, Op.pure_apply, Prod.mk.injEq] at h
    exact ⟨[], .nil, h.2.symm, .inl (by simp [← h.1])⟩
  | cons c cs ih =>
    obtain ⟨k, m⟩ := c
    unfold forEachDue at h
    split_ifs at h with hd
    · rcases Op.ofExcept_bind_cases h with ⟨e, he, ho⟩ | ⟨m', hm', h⟩
      · cases ho
        exact ⟨[], .nil, rfl, .inr ⟨e, k, m, rfl, by simp, hd, he⟩⟩
      · rw [Op.modify_bind] at h
        split_ifs at h
        · cases h
          exact ⟨[(k, m')], .take .nil hd hm', rfl, .inl (by simp)⟩
        · obtain ⟨done, hu, hs, hr⟩ := ih h
          refine ⟨(k, m') :: done, .take hu hd hm', hs, ?_⟩
          rcases hr with hr | ⟨e, k', n, hr, hmem, hrest⟩
          · exact .inl (by simpa using hr)
          · exact .inr ⟨e, k', n, hr, List.mem_cons_of_mem _ hmem, hrest⟩
    · obtain ⟨done, hu, hs, hr⟩ := ih h
      refine ⟨done, .skip hu, hs, ?_⟩
      rcases hr with hr | ⟨e, k', n, hr, hmem, hrest⟩
      · exact .inl hr
      · exact .inr ⟨e, k', n, hr, List.mem_cons_of_mem _ hmem, hrest⟩

/-- When no update can succeed, the loop changes nothing. -/
theorem forEachDue_of_failing {cs : List (Key × OutboxMessage platform)}
    {acc : List (OutboxMessage platform)} {r : Except PyError (List (OutboxMessage platform))}
    (hfail : ∀ k m, ∃ e, update k m = .error e)
    (h : forEachDue due update limit cs acc s = (r, s')) : s' = s := by
  obtain ⟨done, hu, rfl, -⟩ := forEachDue_cases h
  rcases done with _ | ⟨e, done⟩
  · rfl
  · obtain ⟨m, -, -, hm⟩ := hu.each e (by simp)
    obtain ⟨err, herr⟩ := hfail e.1 m
    simp [herr] at hm

theorem mem_candidates {e : Key × OutboxMessage platform} :
    e ∈ s.candidates ↔ s.messagesByKey.get? e.1 = some e.2 := by
  rw [candidates, List.mem_insertionSort, Dict.mem_entries]

theorem nodup_candidates (s : InMemoryOutbox platform) : (s.candidates.map Prod.fst).Nodup :=
  ((List.perm_insertionSort _ _).map _).nodup_iff.mpr s.messagesByKey.nodup

/-- Stored updates of a batch over the current messages. -/
structure Batch (due : Key → OutboxMessage platform → Bool)
    (update : Key → OutboxMessage platform → Except PyError (OutboxMessage platform))
    (s : InMemoryOutbox platform) (done : List (Key × OutboxMessage platform))
    (s' : InMemoryOutbox platform) : Prop where
  nodup : (done.map Prod.fst).Nodup
  each : ∀ e ∈ done, ∃ m, s.messagesByKey.get? e.1 = some m ∧ due e.1 m = true ∧
    update e.1 m = .ok e.2
  state : s' = s.setMessages done

theorem Batch.of_updated {done : List (Key × OutboxMessage platform)}
    (h : Updated due update s.candidates done) : Batch due update s done (s.setMessages done) where
  nodup := h.keys.nodup (nodup_candidates s)
  each e he := by
    obtain ⟨m, hm, hd⟩ := h.each e he
    exact ⟨m, mem_candidates.mp hm, hd⟩
  state := rfl

/-- A batch rewrites a message with its update or leaves it alone. -/
theorem Batch.get? {done : List (Key × OutboxMessage platform)} (h : Batch due update s done s')
    (k : Key) : s'.messagesByKey.get? k = s.messagesByKey.get? k ∨
      ∃ m m', s.messagesByKey.get? k = some m ∧ due k m = true ∧ update k m = .ok m' ∧
        s'.messagesByKey.get? k = some m' := by
  rw [h.state]
  by_cases hk : k ∈ done.map Prod.fst
  · obtain ⟨e, he, rfl⟩ := List.mem_map.mp hk
    obtain ⟨m, hm, hd, hu⟩ := h.each e he
    exact .inr ⟨m, e.2, hm, hd, hu, get?_setMessages_of_mem h.nodup he⟩
  · exact .inl (get?_setMessages_of_not_mem hk)

end Batch

/-- `claim_due` raised without writing, or stored claimed copies of claimable messages. -/
theorem claimDue_cases {principal : Principal} {now : DateTime} {limit leaseSeconds : Int}
    {owner : String} {eventType : Option String} {tokens : Key → Uuid}
    {r : Except PyError (List (OutboxMessage platform))}
    (h : claimDue principal now limit owner leaseSeconds eventType tokens s = (r, s')) :
    (∃ e, r = .error e ∧ s' = s) ∨
      ∃ t o done, principal.trusted = true ∧ now.canonicalUtc "now" = .ok t ∧
        requireLimit limit = .ok () ∧ requireLease leaseSeconds = .ok () ∧
        normalizeOwner owner = .ok o ∧
        Batch (claimable principal t eventType) (claimedCopy o t leaseSeconds tokens) s done s' ∧
        r = .ok (done.map Prod.snd) := by
  unfold claimDue at h
  rcases Op.ofExcept_bind_cases h with ⟨e, -, ho⟩ | ⟨_, htr, h⟩
  · cases ho; exact .inl ⟨e, rfl, rfl⟩
  rcases Op.ofExcept_bind_cases h with ⟨e, -, ho⟩ | ⟨t, ht, h⟩
  · cases ho; exact .inl ⟨e, rfl, rfl⟩
  rcases Op.ofExcept_bind_cases h with ⟨e, -, ho⟩ | ⟨_, hl, h⟩
  · cases ho; exact .inl ⟨e, rfl, rfl⟩
  rcases Op.ofExcept_bind_cases h with ⟨e, -, ho⟩ | ⟨_, hls, h⟩
  · cases ho; exact .inl ⟨e, rfl, rfl⟩
  rcases Op.ofExcept_bind_cases h with ⟨e, -, ho⟩ | ⟨o, hown, h⟩
  · cases ho; exact .inl ⟨e, rfl, rfl⟩
  rw [Op.get_bind] at h
  obtain ⟨done, hu, rfl, hr⟩ := forEachDue_cases h
  rcases hr with rfl | ⟨e, k, m, rfl, -, -, hm⟩
  · exact .inr ⟨t, o, done, requireTrustedPrincipal_eq_ok.mp htr, ht, hl, hls, hown,
      .of_updated hu, by simp⟩
  · -- the lease end depends on the clock and the lease only, so no earlier update succeeded
    refine .inl ⟨e, rfl, forEachDue_of_failing (fun k m => ?_) h⟩
    unfold claimedCopy at hm ⊢
    cases ha : t.addSeconds leaseSeconds with
    | error e => exact ⟨e, rfl⟩
    | ok u => rw [ha] at hm; cases hm

/-- `sweep_expired_sending` returned, having stored swept copies, unless a copy failed validation. -/
theorem sweepExpiredSending_cases {principal : Principal} {now : DateTime} {error : DeliveryError}
    {limit : Int} {eventType : Option String} {r : Except PyError (List (OutboxMessage platform))}
    (h : sweepExpiredSending principal now error limit eventType s = (r, s')) :
    (∃ e, r = .error e ∧ s' = s) ∨
      ∃ t done, principal.trusted = true ∧ now.canonicalUtc "now" = .ok t ∧
        requireLimit limit = .ok () ∧
        Batch (sweepable principal t eventType) (fun _ m => (errorCopy .uncertain error m).modelValidate)
          s done s' ∧
        (r = .ok (done.map Prod.snd) ∨
          ∃ e k m, r = .error e ∧ s.messagesByKey.get? k = some m ∧
            sweepable principal t eventType k m = true ∧
            (errorCopy .uncertain error m).modelValidate = .error e) := by
  unfold sweepExpiredSending at h
  rcases Op.ofExcept_bind_cases h with ⟨e, -, ho⟩ | ⟨_, htr, h⟩
  · cases ho; exact .inl ⟨e, rfl, rfl⟩
  rcases Op.ofExcept_bind_cases h with ⟨e, -, ho⟩ | ⟨t, ht, h⟩
  · cases ho; exact .inl ⟨e, rfl, rfl⟩
  rcases Op.ofExcept_bind_cases h with ⟨e, -, ho⟩ | ⟨_, hl, h⟩
  · cases ho; exact .inl ⟨e, rfl, rfl⟩
  rw [Op.get_bind] at h
  obtain ⟨done, hu, rfl, hr⟩ := forEachDue_cases h
  refine .inr ⟨t, done, requireTrustedPrincipal_eq_ok.mp htr, ht, hl, .of_updated hu, ?_⟩
  rcases hr with rfl | ⟨e, k, m, rfl, hmem, hd, hm⟩
  · exact .inl (by simp)
  · exact .inr ⟨e, k, m, rfl, mem_candidates.mp hmem, hd, hm⟩

/-! ## Single messages -/

theorem find?_eq_some {principal : Principal} {messageId : String} {k : Key}
    {m : OutboxMessage platform} (h : s.find? principal messageId = some (k, m)) :
    s.messagesByKey.get? k = some m ∧ k.1 = principal.tenantId ∧ m.id = messageId := by
  have hm := List.mem_of_find?_eq_some h
  have hp := List.find?_some h
  simp only [Bool.and_eq_true, decide_eq_true_eq] at hp
  exact ⟨Dict.mem_entries.mp hm, hp⟩

/-- `_transition` raised without writing, or stored the validated update of its message. -/
theorem transition_cases {principal : Principal} {messageId claimToken : String}
    {expected : DeliveryStatus} {updates : OutboxMessage platform → OutboxMessage platform}
    {r : Except PyError (OutboxMessage platform)}
    (h : transition principal messageId claimToken expected updates s = (r, s')) :
    (∃ e, r = .error e ∧ s' = s) ∨
      ∃ k m m', principal.trusted = true ∧ s.find? principal messageId = some (k, m) ∧
        m.claimToken = some claimToken ∧ m.dispatchStatus = expected ∧
        (updates m).modelValidate = .ok m' ∧ r = .ok m' ∧ s' = s.setMessage k m' := by
  unfold transition at h
  rcases Op.ofExcept_bind_cases h with ⟨e, -, ho⟩ | ⟨_, htr, h⟩
  · cases ho; exact .inl ⟨e, rfl, rfl⟩
  rcases Op.ofExcept_bind_cases h with ⟨e, -, ho⟩ | ⟨_, -, h⟩
  · cases ho; exact .inl ⟨e, rfl, rfl⟩
  rw [Op.get_bind] at h
  rcases hf : s.find? principal messageId with _ | ⟨k, m⟩
  · simp only [hf] at h
    cases h; exact .inl ⟨_, rfl, rfl⟩
  · simp only [hf] at h
    rcases Op.ofExcept_bind_cases h with ⟨e, -, ho⟩ | ⟨_, htok, h⟩
    · cases ho; exact .inl ⟨e, rfl, rfl⟩
    rcases Op.ofExcept_bind_cases h with ⟨e, -, ho⟩ | ⟨_, hst, h⟩
    · cases ho; exact .inl ⟨e, rfl, rfl⟩
    rcases Op.ofExcept_bind_cases h with ⟨e, -, ho⟩ | ⟨m', hm', h⟩
    · cases ho; exact .inl ⟨e, rfl, rfl⟩
    rw [Op.modify_bind] at h
    cases h
    exact .inr ⟨k, m, m', requireTrustedPrincipal_eq_ok.mp htr, rfl,
      by simpa using htok, by simpa using hst, hm', rfl, rfl⟩

/-- `_operator_transition` raised without writing, or stored the validated update of an uncertain
message. -/
theorem operatorTransition_cases {principal : Principal} {messageId : String}
    {updates : OutboxMessage platform → OutboxMessage platform}
    {r : Except PyError (OutboxMessage platform)}
    (h : operatorTransition principal messageId updates s = (r, s')) :
    (∃ e, r = .error e ∧ s' = s) ∨
      ∃ k m m', principal.trusted = true ∧ s.find? principal messageId = some (k, m) ∧
        m.dispatchStatus = .uncertain ∧
        (updates m).modelValidate = .ok m' ∧ r = .ok m' ∧ s' = s.setMessage k m' := by
  unfold operatorTransition at h
  rcases Op.ofExcept_bind_cases h with ⟨e, -, ho⟩ | ⟨_, htr, h⟩
  · cases ho; exact .inl ⟨e, rfl, rfl⟩
  rw [Op.get_bind] at h
  rcases hf : s.find? principal messageId with _ | ⟨k, m⟩
  · simp only [hf] at h
    cases h; exact .inl ⟨_, rfl, rfl⟩
  · simp only [hf] at h
    rcases Op.ofExcept_bind_cases h with ⟨e, -, ho⟩ | ⟨_, hst, h⟩
    · cases ho; exact .inl ⟨e, rfl, rfl⟩
    rcases Op.ofExcept_bind_cases h with ⟨e, -, ho⟩ | ⟨m', hm', h⟩
    · cases ho; exact .inl ⟨e, rfl, rfl⟩
    rw [Op.modify_bind] at h
    cases h
    exact .inr ⟨k, m, m', requireTrustedPrincipal_eq_ok.mp htr, rfl, by simpa using hst, hm', rfl,
      rfl⟩

/-- `add` raised without writing, returned the stored message of the key, or stored a new one. -/
theorem add_cases {principal : Principal} {event : CloudEvent platform} {idempotencyKey : String}
    {nextAttemptAt : Option DateTime} {messageId : Option String} {fresh : Uuid} {now : Instant}
    {r : Except PyError (OutboxMessage platform)}
    (h : add principal event idempotencyKey nextAttemptAt messageId fresh now s = (r, s')) :
    (∃ e, r = .error e ∧ s' = s) ∨
      ∃ next, principal.trusted = true ∧ event.tenantId = principal.tenantId ∧
        canonicalOption nextAttemptAt "next_attempt_at" = .ok next ∧
        ((∃ m, s.messagesByKey.get? (principal.tenantId, idempotencyKey) = some m ∧
            s.fingerprints.get? (principal.tenantId, idempotencyKey) = some
              (platform.fingerprint (writeDocument event.toCloudEventFields next messageId)) ∧
            r = .ok m ∧ s' = s) ∨
          ∃ m, s.messagesByKey.get? (principal.tenantId, idempotencyKey) = none ∧
            (newMessage principal event idempotencyKey next
              (messageId.getD ("out_" ++ fresh.hex)) now).modelValidate = .ok m ∧
            takenByOther s.keyByMessageId (principal.tenantId, m.id) idempotencyKey = false ∧
            takenByOther s.keyByEventId (principal.tenantId, event.id) idempotencyKey = false ∧
            r = .ok m ∧
            s' = {
              messagesByKey := s.messagesByKey.set (principal.tenantId, idempotencyKey) m
              keyByMessageId := s.keyByMessageId.set (principal.tenantId, m.id) idempotencyKey
              keyByEventId := s.keyByEventId.set (principal.tenantId, event.id) idempotencyKey
              fingerprints := s.fingerprints.set (principal.tenantId, idempotencyKey)
                (platform.fingerprint (writeDocument event.toCloudEventFields next messageId)) }) := by
  unfold add at h
  rcases Op.ofExcept_bind_cases h with ⟨e, -, ho⟩ | ⟨_, htr, h⟩
  · cases ho; exact .inl ⟨e, rfl, rfl⟩
  rcases Op.ofExcept_bind_cases h with ⟨e, -, ho⟩ | ⟨_, hten, h⟩
  · cases ho; exact .inl ⟨e, rfl, rfl⟩
  rcases Op.ofExcept_bind_cases h with ⟨e, -, ho⟩ | ⟨next, hnext, h⟩
  · cases ho; exact .inl ⟨e, rfl, rfl⟩
  have htr := requireTrustedPrincipal_eq_ok.mp htr
  have hten : event.tenantId = principal.tenantId := by simpa using hten
  rw [Op.get_bind] at h
  cases hm : s.messagesByKey.get? (principal.tenantId, idempotencyKey) with
  | some m =>
    simp only [hm] at h
    cases hfp : s.fingerprints.get? (principal.tenantId, idempotencyKey) with
    | none =>
      simp only [hfp] at h
      cases h; exact .inl ⟨_, rfl, rfl⟩
    | some stored =>
      simp only [hfp] at h
      split_ifs at h with hne
      · cases h; exact .inl ⟨_, rfl, rfl⟩
      · cases h
        exact .inr ⟨next, htr, hten, hnext, .inl ⟨m, rfl, by rw [not_not.mp hne], rfl, rfl⟩⟩
  | none =>
    simp only [hm] at h
    rcases Op.ofExcept_bind_cases h with ⟨e, -, ho⟩ | ⟨m, hv, h⟩
    · cases ho; exact .inl ⟨e, rfl, rfl⟩
    split_ifs at h with h₁ h₂
    · cases h; exact .inl ⟨_, rfl, rfl⟩
    · cases h; exact .inl ⟨_, rfl, rfl⟩
    · rw [Op.modify_bind] at h
      cases h
      exact .inr ⟨next, htr, hten, hnext, .inr ⟨m, rfl, hv, by simpa using h₁, by simpa using h₂,
        rfl, rfl⟩⟩

end InMemoryOutbox

end PersonalAssistant
