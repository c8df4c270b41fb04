import PersonalAssistant.Postgres.Simulation

/-!
# Both outbox backends implement the same machine

Additions, batches and transitions of the two backends match on related states, so any sequence of
calls in range keeps an in-memory outbox and a table related, with the same results. Generated
identifiers and clock readings are the same on both sides. The one call that neither backend can
perform, failing the claim of a message that was already attempted, is refused by both through their
state metadata.
-/
namespace PersonalAssistant

open Lib InMemoryOutbox

variable {platform : Platform} {H : Set String} {writes : Key → OutboxWrite}
  {s : InMemoryOutbox platform} {t : OutboxTable platform}

/-! ## Additions -/

theorem mem_of_mem_trim {x : String} {c : Char} (h : c ∈ (trim x).toList) : c ∈ x.toList := by
  rw [trim, toList_stripBy] at h
  exact (List.dropWhile_sublist _).subset ((List.rdropWhile_prefix _ _).subset h)

theorem storable_trim {x : String} (h : storable x = true) : storable (trim x) = true := by
  simp only [storable, List.all_eq_true, decide_eq_true_eq] at h ⊢
  exact fun c hc => h c (mem_of_mem_trim hc)

theorem storable_generated (u : Uuid) : storable ("out_" ++ u.hex) = true := by
  rw [storable_append, u.storable_hex]
  decide

/-- A new message validates: only its identifier is trimmed. -/
theorem newMessage_modelValidate (principal : Principal) (event : CloudEvent platform)
    {idempotencyKey : String} (next : Option Instant) (id : String) (now : Instant)
    (hkey : Trimmed idempotencyKey) (hne : idempotencyKey ≠ "") :
    (newMessage principal event idempotencyKey next id now).modelValidate =
      .ok (newMessage principal event idempotencyKey next (trim id) now) := by
  have ht : (newMessage principal event idempotencyKey next id now).trimmed =
      newMessage principal event idempotencyKey next (trim id) now := by
    have htenant : trim principal.tenantId = principal.tenantId := principal.tenant.trimmed
    have hk : trim idempotencyKey = idempotencyKey := hkey
    simp [OutboxMessage.trimmed, newMessage, htenant, hk]
  have h₁ : requireNonempty (newMessage principal event idempotencyKey next (trim id) now).tenantId =
      .ok () := OutboxMessage.requireNonempty_eq_ok.mpr principal.tenant.ne
  have h₂ : requireNonempty (newMessage principal event idempotencyKey next (trim id) now).idempotencyKey =
      .ok () := OutboxMessage.requireNonempty_eq_ok.mpr hne
  unfold OutboxMessage.modelValidate
  rw [ht, h₁, h₂]
  rfl

/-- An identifier index answers whether another message of the tenant has the identifier. -/
theorem takenByOther_iff {index : Dict Key String} {f : OutboxMessage platform → String}
    (hindex : ∀ tenant id key, index.get? (tenant, id) = some key ↔
      ∃ m, s.messagesByKey.get? (tenant, key) = some m ∧ f m = id)
    {tenant key : String} (id : String) (hnone : s.messagesByKey.get? (tenant, key) = none) :
    takenByOther index (tenant, id) key = true ↔
      ∃ e ∈ s.messagesByKey.entries, e.1.1 = tenant ∧ f e.2 = id := by
  unfold takenByOther
  cases hi : index.get? (tenant, id) with
  | none =>
    simp only [Bool.false_eq_true, false_iff, not_exists, not_and]
    rintro ⟨⟨_, k⟩, m⟩ he rfl hf
    have := (hindex _ id k).mpr ⟨m, Dict.mem_entries.mp he, hf⟩
    simp [this] at hi
  | some k =>
    obtain ⟨m, hm, hf⟩ := (hindex tenant id k).mp hi
    have hne : k ≠ key := by rintro rfl; simp [hnone] at hm
    simp only [decide_eq_true_eq, hne, ne_eq, not_false_eq_true, true_iff]
    exact ⟨((tenant, k), m), Dict.mem_entries.mpr hm, rfl, hf⟩

/-- A message of a new key and new identifiers extends the indexes. -/
theorem InMemoryOutbox.Coherent.add (h : s.Coherent) {tenant key : String}
    {m : OutboxMessage platform} {fp : Digest} (hnone : s.messagesByKey.get? (tenant, key) = none)
    (hs : Sound (tenant, key) m) (hkey : m.idempotencyKey = key) (hst : m.dispatchStatus = .pending)
    (hatt : m.attempts = 0)
    (hid : ∀ e ∈ s.messagesByKey.entries, e.1.1 = tenant → e.2.id ≠ m.id)
    (hev : ∀ e ∈ s.messagesByKey.entries, e.1.1 = tenant → e.2.event.id ≠ m.event.id) :
    ({ messagesByKey := s.messagesByKey.set (tenant, key) m
       keyByMessageId := s.keyByMessageId.set (tenant, m.id) key
       keyByEventId := s.keyByEventId.set (tenant, m.event.id) key
       fingerprints := s.fingerprints.set (tenant, key) fp } : InMemoryOutbox platform).Coherent := by
  -- one argument for both indexes
  have hindex : ∀ {index : Dict Key String} {f : OutboxMessage platform → String},
      (∀ tenant id key, index.get? (tenant, id) = some key ↔
        ∃ m, s.messagesByKey.get? (tenant, key) = some m ∧ f m = id) →
      (∀ e ∈ s.messagesByKey.entries, e.1.1 = tenant → f e.2 ≠ f m) →
      ∀ tenant' id key', (index.set (tenant, f m) key).get? (tenant', id) = some key' ↔
        ∃ n, (s.messagesByKey.set (tenant, key) m).get? (tenant', key') = some n ∧ f n = id := by
    intro index f hi hnew tenant' id key'
    rw [Dict.get?_set]
    split_ifs with hk
    · obtain ⟨rfl, rfl⟩ := Prod.mk.inj hk
      rw [Option.some.injEq]
      constructor
      · rintro rfl; exact ⟨m, Dict.get?_set_self _ _ _, rfl⟩
      · rintro ⟨n, hn, hf⟩
        rw [Dict.get?_set] at hn
        split_ifs at hn with hk'
        · exact (Prod.mk.inj hk').2.symm
        · exact absurd hf (hnew ((_, key'), n) (Dict.mem_entries.mpr hn) rfl)
    · rw [hi]
      refine exists_congr fun n => ?_
      rw [Dict.get?_set]
      split_ifs with hk'
      · obtain ⟨rfl, rfl⟩ := Prod.mk.inj hk'
        rw [hnone]
        constructor
        · rintro ⟨hn, -⟩; cases hn
        · rintro ⟨hn, rfl⟩; cases hn; exact absurd rfl hk
      · rfl
  refine ⟨?_, ?_, hindex h.byMessageId hid, hindex h.byEventId hev, ?_, ?_⟩
  all_goals
    intro k n hn
    simp only [Dict.get?_set] at hn
    split_ifs at hn with hk
  · cases hn; exact hk ▸ hs
  · exact h.sound k n hn
  · cases hn; rw [hk]; exact hkey
  · exact h.key k n hn
  · cases hn; simp [hst]
  · exact h.lease k n hn
  · cases hn; simp [hatt]
  · exact h.attempts k n hn

section Add

variable {principal : Principal} {event : CloudEvent platform} {idempotencyKey : String}
  {nextAttemptAt : Option DateTime} {messageId : Option String} {fresh : Uuid} {now : Instant}

/-- The texts an `INSERT` binds. -/
structure Insertable (principal : Principal) (event : CloudEvent platform) (idempotencyKey : String)
    (messageId : Option String) : Prop where
  trimmed : Trimmed idempotencyKey
  ne : idempotencyKey ≠ ""
  tenant : storable principal.tenantId = true
  key : storable idempotencyKey = true
  id : ∀ x ∈ messageId, storable x = true
  eventId : storable event.id = true
  event : storableJson (CloudEvent.json event.toCloudEventFields) = true

/-- Up to the unique keys, an `INSERT` in range goes through. -/
theorem PostgresOutbox.add_eq (hi : Insertable principal event idempotencyKey messageId)
    {next : Option Instant} (htr : principal.trusted = true)
    (hten : event.tenantId = principal.tenantId)
    (hnext : canonicalOption nextAttemptAt "next_attempt_at" = .ok next) {row : OutboxRow platform}
    (hrow : row = .ofMessage (platform.fingerprint
        (PostgresOutbox.writeDocument event.toCloudEventFields next messageId))
      (newMessage principal event idempotencyKey next
        (trim (messageId.getD ("out_" ++ fresh.hex))) now)) :
    PostgresOutbox.add principal event idempotencyKey nextAttemptAt messageId fresh now t =
      if t.any (PostgresOutbox.collides row) then
        match t.find? fun r =>
            r.tenantId = principal.tenantId && r.idempotencyKey = idempotencyKey with
        | none => (.error (conflict "outbox durable id conflict" principal), t)
        | some existing =>
          if existing.fingerprint ≠ row.fingerprint then
            (.error (conflict "outbox idempotency conflict" principal), t)
          else (existing.payload.modelValidate, t)
      else (.ok row.payload, t ++ [row]) := by
  have htrust := requireTrustedPrincipal_of_trusted htr
  have hid : storable (trim (messageId.getD ("out_" ++ fresh.hex))) = true := by
    refine storable_trim ?_
    cases messageId with
    | none => exact storable_generated fresh
    | some x => exact hi.id x rfl
  have hbind : bindTexts [principal.tenantId, idempotencyKey,
      trim (messageId.getD ("out_" ++ fresh.hex)), event.id] = .ok () := by
    simp [bindTexts, hi.tenant, hi.key, hid, hi.eventId]
  have hv := newMessage_modelValidate principal event next (messageId.getD ("out_" ++ fresh.hex)) now
    hi.trimmed hi.ne
  have hv' := newMessage_modelValidate principal event next
    (trim (messageId.getD ("out_" ++ fresh.hex))) now hi.trimmed hi.ne
  have htt : trim (trim (messageId.getD ("out_" ++ fresh.hex))) =
      trim (messageId.getD ("out_" ++ fresh.hex)) := trimmed_trim _
  rw [htt] at hv'
  have hinsert : insertedRow principal event idempotencyKey (platform.fingerprint
      (PostgresOutbox.writeDocument event.toCloudEventFields next messageId))
      (newMessage principal event idempotencyKey next
        (trim (messageId.getD ("out_" ++ fresh.hex))) now) = row := hrow.symm
  have hcheck : row.check = true := by rw [hrow]; rfl
  have hpayload : row.payload.modelValidate = .ok row.payload := by rw [hrow]; exact hv'
  have hfp : row.fingerprint = platform.fingerprint
      (PostgresOutbox.writeDocument event.toCloudEventFields next messageId) := by rw [hrow]; rfl
  have hmid : (newMessage principal event idempotencyKey next
      (trim (messageId.getD ("out_" ++ fresh.hex))) now).id =
      trim (messageId.getD ("out_" ++ fresh.hex)) := rfl
  unfold PostgresOutbox.add
  simp only [htrust, hten, hnext, hv, hmid, hbind, hi.event, hinsert, hcheck, hpayload, decide_true,
    require_true, Op.ofExcept_ok_bind, Op.get_bind]
  by_cases hany : t.any (PostgresOutbox.collides row) = true
  · simp only [hany, Bool.not_true, Bool.false_eq_true, if_false, if_true]
    cases t.find? fun r =>
        r.tenantId = principal.tenantId && r.idempotencyKey = idempotencyKey with
    | none => rfl
    | some existing =>
      simp only [hfp]
      by_cases he : existing.fingerprint = platform.fingerprint
          (PostgresOutbox.writeDocument event.toCloudEventFields next messageId) <;> simp [he]
  · simp only [Bool.not_eq_true] at hany
    simp [hany]

/-- The row of a key is found by tenant and key. -/
theorem Agrees.find?_key (h : Agrees H writes s t) (tenant key : String) :
    (t.find? fun r => r.tenantId = tenant && r.idempotencyKey = key) =
      (s.messagesByKey.get? (tenant, key)).map fun m => rowOf writes ((tenant, key), m) := by
  have hkey : ∀ e ∈ s.messagesByKey.entries, ((rowOf writes e).tenantId = tenant ∧
      (rowOf writes e).idempotencyKey = key ↔ e.1 = (tenant, key)) := by
    intro e he
    have hk : (rowOf writes e).idempotencyKey = e.1.2 := h.key e.1 e.2 (Dict.mem_entries.mp he)
    rw [h.found_rowOf he, hk, Prod.ext_iff]
  cases hm : s.messagesByKey.get? (tenant, key) with
  | none =>
    rw [Option.map_none, List.find?_eq_none, h.rows]
    intro r hr hfound
    obtain ⟨e, he, rfl⟩ := List.mem_map.mp hr
    have he' := (hkey e he).mp (by simpa using hfound)
    rw [← he', Dict.mem_entries.mp he] at hm
    cases hm
  | some m =>
    have hmem : ((tenant, key), m) ∈ s.messagesByKey.entries := Dict.mem_entries.mpr hm
    obtain ⟨r, hr⟩ : ∃ r, (t.find? fun r => r.tenantId = tenant && r.idempotencyKey = key) = some r := by
      rw [← Option.isSome_iff_exists, List.find?_isSome, h.rows]
      exact ⟨_, List.mem_map_of_mem hmem, by simpa using (hkey _ hmem).mpr rfl⟩
    have hp := List.find?_some hr
    have hrt := List.mem_of_find?_eq_some hr
    rw [h.rows] at hrt
    obtain ⟨e, he, rfl⟩ := List.mem_map.mp hrt
    have he' := (hkey e he).mp (by simpa using hp)
    have hv := Dict.mem_entries.mp he
    rw [he', hm] at hv
    rw [hr, Option.map_some, (Prod.ext he' (Option.some.inj hv).symm : e = ((tenant, key), m))]

/-- A row violates a unique key of the table exactly when a stored message of the tenant shares its key
or one of its identifiers. -/
theorem Agrees.any_collides (h : Agrees H writes s t) (fp : Digest) (m : OutboxMessage platform) :
    t.any (PostgresOutbox.collides (.ofMessage fp m)) = true ↔
      ∃ e ∈ s.messagesByKey.entries, e.1.1 = m.tenantId ∧
        (e.1.2 = m.idempotencyKey ∨ e.2.id = m.id ∨ e.2.event.id = m.event.id) := by
  rw [h.rows, List.any_map, List.any_eq_true]
  refine exists_congr fun e => and_congr_right fun he => ?_
  have htenant : e.2.tenantId = e.1.1 := h.found_rowOf he
  have hkey := h.key e.1 e.2 (Dict.mem_entries.mp he)
  simp only [Function.comp_apply, PostgresOutbox.collides, rowOf, OutboxRow.ofMessage,
    Bool.and_eq_true, Bool.or_eq_true, decide_eq_true_eq, htenant, hkey, or_assoc, @eq_comm _ m.tenantId,
    @eq_comm _ m.idempotencyKey, @eq_comm _ m.id, @eq_comm _ m.event.id]

/-- For a new key these are the rows whose identifiers the indexes reject. -/
theorem Agrees.any_collides_new (h : Agrees H writes s t) (fp : Digest) {m : OutboxMessage platform}
    (hnone : s.messagesByKey.get? (m.tenantId, m.idempotencyKey) = none) :
    t.any (PostgresOutbox.collides (.ofMessage fp m)) = true ↔
      takenByOther s.keyByMessageId (m.tenantId, m.id) m.idempotencyKey = true ∨
        takenByOther s.keyByEventId (m.tenantId, m.event.id) m.idempotencyKey = true := by
  rw [h.any_collides, takenByOther_iff h.byMessageId m.id hnone,
    takenByOther_iff (f := fun m => m.event.id) h.byEventId m.event.id hnone]
  constructor
  · rintro ⟨e, he, ht, hk | hid | hev⟩
    · have hv := Dict.mem_entries.mp he
      rw [(Prod.ext ht hk : e.1 = (m.tenantId, m.idempotencyKey)), hnone] at hv
      cases hv
    · exact .inl ⟨e, he, ht, hid⟩
    · exact .inr ⟨e, he, ht, hev⟩
  · rintro (⟨e, he, ht, hid⟩ | ⟨e, he, ht, hev⟩)
    · exact ⟨e, he, ht, .inr (.inl hid)⟩
    · exact ⟨e, he, ht, .inr (.inr hev)⟩

/-- Storing a new message and inserting its row keeps the states related. -/
theorem Agrees.insert (h : Agrees H writes s t) {tenant key : String} {w : OutboxWrite}
    {m : OutboxMessage platform} (hnone : s.messagesByKey.get? (tenant, key) = none)
    (hs : Sound (tenant, key) m) (hkey : m.idempotencyKey = key) (hst : m.dispatchStatus = .pending)
    (hatt : m.attempts = 0) (hH : w.hashed ⊆ H)
    (hid : ∀ e ∈ s.messagesByKey.entries, e.1.1 = tenant → e.2.id ≠ m.id)
    (hev : ∀ e ∈ s.messagesByKey.entries, e.1.1 = tenant → e.2.event.id ≠ m.event.id) :
    Agrees H (Function.update writes (tenant, key) w)
      { messagesByKey := s.messagesByKey.set (tenant, key) m
        keyByMessageId := s.keyByMessageId.set (tenant, m.id) key
        keyByEventId := s.keyByEventId.set (tenant, m.event.id) key
        fingerprints := s.fingerprints.set (tenant, key) (platform.fingerprint w.document) }
      (t ++ [.ofMessage (platform.fingerprint w.postgresDocument) m]) := by
  refine ⟨h.toCoherent.add hnone hs hkey hst hatt hid hev, ?_, ?_, ?_⟩
  · rw [Dict.entries_set_of_get?_eq_none m hnone, List.map_append, h.rows]
    congr 1
    · refine List.map_congr_left fun e he => ?_
      have hne : e.1 ≠ (tenant, key) := by
        intro hk
        have hv := Dict.mem_entries.mp he
        rw [hk, hnone] at hv
        cases hv
      rw [rowOf, rowOf, Function.update_of_ne hne]
    · rw [List.map_singleton, rowOf, Function.update_self]
  · intro k n hn
    simp only [Dict.get?_set] at hn ⊢
    split_ifs at hn ⊢ with hk
    · rw [hk, Function.update_self]
    · rw [Function.update_of_ne hk]; exact h.fingerprints k n hn
  · intro k n hn
    simp only [Dict.get?_set] at hn
    split_ifs at hn with hk
    · rw [hk, Function.update_self]; exact hH
    · rw [Function.update_of_ne hk]; exact h.hashed k n hn

/-- `add` on an outbox and on its table agree. -/
theorem Agrees.add (h : Agrees H writes s t) (hcf : Set.InjOn platform.sha256 H)
    (hi : Insertable principal event idempotencyKey messageId) {next : Option Instant}
    (htr : principal.trusted = true)
    (hnext : canonicalOption nextAttemptAt "next_attempt_at" = .ok next)
    (hH : (⟨event.toCloudEventFields, next, messageId⟩ : OutboxWrite).hashed ⊆ H) :
    Matches Eq False H s t
      (InMemoryOutbox.add principal event idempotencyKey nextAttemptAt messageId fresh now s)
      (PostgresOutbox.add principal event idempotencyKey nextAttemptAt messageId fresh now t) := by
  have htrust := requireTrustedPrincipal_of_trusted htr
  by_cases hten : event.tenantId = principal.tenantId
  swap
  · unfold InMemoryOutbox.add PostgresOutbox.add
    simp only [htrust, hten, decide_false, require_false, Op.ofExcept_ok_bind, Op.ofExcept_error_bind]
    exact .raised .permissionDenied rfl rfl
  obtain ⟨m, hm⟩ : ∃ m, m = newMessage principal event idempotencyKey next
    (trim (messageId.getD ("out_" ++ fresh.hex))) now := ⟨_, rfl⟩
  have hv := newMessage_modelValidate principal event next (messageId.getD ("out_" ++ fresh.hex)) now
    hi.trimmed hi.ne
  rw [← hm] at hv
  rw [PostgresOutbox.add_eq hi htr hten hnext rfl, ← hm]
  have hany := h.any_collides (platform.fingerprint
    (PostgresOutbox.writeDocument event.toCloudEventFields next messageId)) m
  have hmt : m.tenantId = principal.tenantId := by rw [hm]; rfl
  have hmk : m.idempotencyKey = idempotencyKey := by rw [hm]; rfl
  have hme : m.event = event := by rw [hm]; rfl
  rw [hmt, hmk, hme] at hany
  unfold InMemoryOutbox.add
  simp only [htrust, hten, hnext, hv, decide_true, require_true, Op.ofExcept_ok_bind, Op.get_bind]
  cases hget : s.messagesByKey.get? (principal.tenantId, idempotencyKey) with
  | some existing =>
    -- the key is stored: both compare the fingerprints of the same two writes
    have hmem : ((principal.tenantId, idempotencyKey), existing) ∈ s.messagesByKey.entries :=
      Dict.mem_entries.mpr hget
    have hfp := OutboxWrite.fingerprint_eq_iff hcf (h.hashed _ _ hget) hH
    have hvalid : existing.modelValidate = .ok existing := by
      have hs := h.sound _ _ hget
      have hok : existing.requireStateMetadata = .ok () := hs.metadata
      rw [hs.normal.modelValidate, hok]
      rfl
    rw [if_pos (hany.mpr ⟨_, hmem, rfl, .inl rfl⟩), h.find?_key, hget, h.fingerprints _ _ hget]
    simp only [Option.map_some]
    by_cases heq : platform.fingerprint (writes (principal.tenantId, idempotencyKey)).document =
        platform.fingerprint (InMemoryOutbox.writeDocument event.toCloudEventFields next messageId)
    · have heq' : (rowOf writes ((principal.tenantId, idempotencyKey), existing)).fingerprint =
          (OutboxRow.ofMessage (platform.fingerprint
            (PostgresOutbox.writeDocument event.toCloudEventFields next messageId)) m).fingerprint :=
        hfp.mpr heq
      rw [if_neg (not_not.mpr heq), if_neg (not_not.mpr heq')]
      change Matches _ _ _ _ _ (.ok existing, s) (existing.modelValidate, t)
      rw [hvalid]
      exact .returned writes rfl h
    · have heq' : (rowOf writes ((principal.tenantId, idempotencyKey), existing)).fingerprint ≠
          (OutboxRow.ofMessage (platform.fingerprint
            (PostgresOutbox.writeDocument event.toCloudEventFields next messageId)) m).fingerprint :=
        fun he => heq (hfp.mp he)
      rw [if_pos heq, if_pos heq']
      exact .raised .conflict rfl rfl
  | none =>
    rw [h.find?_key, hget, Option.map_none]
    simp only [Op.ofExcept_ok_bind]
    have hcollides := h.any_collides_new (m := m) (platform.fingerprint
      (PostgresOutbox.writeDocument event.toCloudEventFields next messageId)) (by rw [hmt, hmk]; exact hget)
    rw [hmt, hmk, hme] at hcollides
    by_cases htaken : takenByOther s.keyByMessageId (principal.tenantId, m.id) idempotencyKey = true ∨
        takenByOther s.keyByEventId (principal.tenantId, event.id) idempotencyKey = true
    · -- another message owns an identifier
      rw [if_pos (hcollides.mpr htaken)]
      by_cases h₁ : takenByOther s.keyByMessageId (principal.tenantId, m.id) idempotencyKey = true
      · rw [if_pos h₁]
        exact .raised .conflict rfl rfl
      · rw [if_neg h₁, if_pos (htaken.resolve_left h₁)]
        exact .raised .conflict rfl rfl
    · obtain ⟨hid, hev⟩ := not_or.mp htaken
      rw [if_neg hid, if_neg hev, if_neg fun hc => htaken (hcollides.mp hc)]
      obtain ⟨-, hnorm, hmeta⟩ := OutboxMessage.modelValidate_eq_ok hv
      have hinsert := h.insert hget ⟨hnorm, hmeta, hmt⟩ hmk (by rw [hm]; rfl) (by rw [hm]; rfl) hH
        (fun e he ht hf => hid ((takenByOther_iff h.byMessageId m.id hget).mpr ⟨e, he, ht, hf⟩))
        (fun e he ht hf => hev ((takenByOther_iff (f := fun m => m.event.id) h.byEventId event.id hget).mpr
          ⟨e, he, ht, by rwa [hme] at hf⟩))
      rw [hme] at hinsert
      exact .returned _ rfl hinsert

end Add

/-! ## Calls in range -/

/-- A timestamp with an offset whose UTC value exists. -/
def DateTime.Representable (d : DateTime) : Prop := ∃ t, ∀ field, d.canonicalUtc field = .ok t

/-- The texts of a token-guarded call. -/
structure Presentable (principal : Principal) (messageId claimToken : String) : Prop where
  token : strip claimToken ≠ ""
  texts : PostgresOutbox.bindTexts [principal.tenantId, messageId, claimToken] = .ok ()

namespace OutboxCall

def runPostgres : OutboxCall platform → PostgresOutbox.Method platform (List (OutboxMessage platform))
  | add p event key next id fresh now => single (PostgresOutbox.add p event key next id fresh now)
  | claimDue p now limit owner lease type tokens =>
    PostgresOutbox.claimDue p now limit owner lease type tokens
  | markSending p id token startedAt => single (PostgresOutbox.markSending p id token startedAt)
  | markClaimFailed p id token error => single (PostgresOutbox.markClaimFailed p id token error)
  | markPublished p id token publishedAt clock =>
    single (PostgresOutbox.markPublished p id token publishedAt clock)
  | markFailed p id token error => single (PostgresOutbox.markFailed p id token error)
  | markUncertain p id token error => single (PostgresOutbox.markUncertain p id token error)
  | release p id token next => single (PostgresOutbox.release p id token next)
  | reschedule p id token next error => single (PostgresOutbox.reschedule p id token next error)
  | sweepExpiredSending p now error limit type =>
    PostgresOutbox.sweepExpiredSending p now error limit type
  | resolveUncertainDelivered p id publishedAt =>
    single (PostgresOutbox.resolveUncertainDelivered p id publishedAt)
  | resolveUncertainRetry p id next => single (PostgresOutbox.resolveUncertainRetry p id next)

/-- Arguments in range: representable timestamps, documented limits, claim tokens that are not blank,
keys without outer whitespace, and texts a server can store. -/
def InRange : OutboxCall platform → Prop
  | add p event key next id _ _ => Insertable p event key id ∧ ∀ d ∈ next, d.Representable
  | claimDue p now limit owner lease type _ =>
    (∃ t u, (∀ field, now.canonicalUtc field = .ok t) ∧ t.addSeconds lease = .ok u) ∧
      requireLimit limit = .ok () ∧ (∃ o, normalizeOwner owner = .ok o) ∧ requireLease lease = .ok () ∧
      PostgresOutbox.bindTexts (p.tenantId :: type.toList) = .ok ()
  | markSending p id token startedAt => Presentable p id token ∧ startedAt.Representable
  | markClaimFailed p id token _ => Presentable p id token
  | markPublished p id token publishedAt _ =>
    Presentable p id token ∧ ∀ d ∈ publishedAt, d.Representable
  | markFailed p id token _ => Presentable p id token
  | markUncertain p id token _ => Presentable p id token
  | release p id token next => Presentable p id token ∧ ∀ d ∈ next, d.Representable
  | reschedule p id token next _ => Presentable p id token ∧ next.Representable
  | sweepExpiredSending p now _ limit type =>
    now.Representable ∧ requireLimit limit = .ok () ∧
      PostgresOutbox.bindTexts (p.tenantId :: type.toList) = .ok ()
  | resolveUncertainDelivered p id publishedAt =>
    PostgresOutbox.bindTexts [p.tenantId, id] = .ok () ∧ publishedAt.Representable
  | resolveUncertainRetry p id next =>
    PostgresOutbox.bindTexts [p.tenantId, id] = .ok () ∧ next.Representable

/-- The texts a call hashes. -/
def hashed : OutboxCall platform → Set String
  | add _ event _ next id _ _ =>
    {x | ∃ t, canonicalOption next "next_attempt_at" = .ok t ∧
      x ∈ (⟨event.toCloudEventFields, t, id⟩ : OutboxWrite).hashed}
  | _ => ∅

/-- The attempt a call counts still fits the `INTEGER` column. -/
def Countable (s : InMemoryOutbox platform) : OutboxCall platform → Prop
  | markSending p id _ _ => ∀ k m, s.find? p id = some (k, m) → m.attempts < maxInteger
  | _ => True

/-- The call fails the claim of a message that was attempted before: the state metadata has no place for
a failed message with attempts and without a sending time. -/
def FailsAttempted (s : InMemoryOutbox platform) : OutboxCall platform → Prop
  | markClaimFailed p id token _ => p.trusted = true ∧ ∃ k m, s.find? p id = some (k, m) ∧
      m.claimToken = some token ∧ m.dispatchStatus = .claimed ∧ 1 ≤ m.attempts
  | _ => False

end OutboxCall

theorem canonicalOption_of_representable {d : Option DateTime} (h : ∀ x ∈ d, x.Representable)
    (field : String) : ∃ t, canonicalOption d field = .ok t := by
  cases d with
  | none => exact ⟨none, rfl⟩
  | some x =>
    obtain ⟨t, ht⟩ := h x rfl
    exact ⟨some t, by simp [canonicalOption, ht field, Except.map]⟩

theorem Matches.mono {α : Type} {R : α → α → Prop} {p q : Prop}
    {x : Except PyError α × InMemoryOutbox platform} {y : Except PyError α × OutboxTable platform}
    (h : Matches R p H s t x y) (hpq : p → q) : Matches R q H s t x y := by
  cases h with
  | returned writes hR hA => exact .returned writes hR hA
  | raised code h₁ h₂ => exact .raised code h₁ h₂
  | refused hp h₁ h₂ => exact .refused (hpq hp) h₁ h₂

/-- Matching methods that return one message match as calls. -/
theorem Matches.single {p : Prop} {x : InMemoryOutbox.Method platform (OutboxMessage platform)}
    {y : PostgresOutbox.Method platform (OutboxMessage platform)}
    (h : Matches Eq p H s t (x s) (y t)) :
    Matches List.Perm p H s t (OutboxCall.single x s) (OutboxCall.single y t) := by
  unfold OutboxCall.single
  rcases hx : x s with ⟨rx, s'⟩
  rcases hy : y t with ⟨ry, t'⟩
  rw [hx, hy] at h
  cases h with
  | returned writes hR hA =>
    rw [Op.bind_ok hx, Op.bind_ok hy, hR]
    exact .returned writes (.refl _) hA
  | raised code h₁ h₂ =>
    rw [Op.bind_error hx, Op.bind_error hy]
    exact .raised code h₁ h₂
  | refused hp h₁ h₂ =>
    rw [Op.bind_error hx, Op.bind_error hy]
    exact .refused hp h₁ h₂

/-! ## What each update assigns -/

section Assigns

open PostgresOutbox

/-- What the metadata of a state says about the fields the updates leave alone. -/
theorem OutboxMessage.StateMetadata.of_claimed {m : OutboxMessage platform} (h : m.StateMetadata)
    (hst : m.dispatchStatus = .claimed) :
    m.lacksClaim = false ∧ m.sendingAt = none ∧ m.publishedAt = none := by
  simp only [StateMetadata, requireStateMetadata, hst] at h
  split_ifs at h
  simp_all

theorem OutboxMessage.StateMetadata.of_sending {m : OutboxMessage platform} (h : m.StateMetadata)
    (hst : m.dispatchStatus = .sending) :
    m.lacksClaim = false ∧ m.sendingAt.isSome = true ∧ 1 ≤ m.attempts ∧ m.publishedAt = none := by
  simp only [StateMetadata, requireStateMetadata, hst] at h
  split_ifs at h with h₁ h₂
  simp only [Bool.or_eq_true, not_or, decide_eq_true_eq] at h₁
  exact ⟨by simpa using h₁.1.1, by simpa [Option.isSome_iff_ne_none] using h₁.1.2, by omega,
    by simpa using h₂⟩

theorem OutboxMessage.StateMetadata.of_uncertain {m : OutboxMessage platform} (h : m.StateMetadata)
    (hst : m.dispatchStatus = .uncertain) :
    m.retainsClaim = false ∧ m.publishedAt = none := by
  simp only [StateMetadata, requireStateMetadata, hst] at h
  split_ifs at h
  simp_all

/-- A token-guarded method behind the checks both backends pass. -/
theorem Agrees.guarded (h : Agrees H writes s t) {principal : Principal} {id token : String}
    {expected : DeliveryStatus} {updates : OutboxMessage platform → OutboxMessage platform}
    {assign : OutboxRow platform → OutboxRow platform} (hp : Presentable principal id token)
    (htr : principal.trusted = true) (ha : Assigns expected updates assign)
    (hle : ∀ k m, s.find? principal id = some (k, m) → (updates m).attempts ≤ maxInteger)
    (hmeta : ∀ m, m.StateMetadata → m.dispatchStatus = expected → (updates m).StateMetadata) :
    Matches Eq False H s t (InMemoryOutbox.transition principal id token expected updates s)
      (transitionDeliveryRow principal id token expected assign t) := by
  refine (h.transition ha htr hp.token hp.texts hle).mono ?_
  rintro ⟨k, m, hf, -, hst, hnot⟩
  exact hnot (hmeta m (h.sound k m (find?_eq_some hf).1).metadata hst)

theorem assigns_errorCopy {expected target : DeliveryStatus} (hl : Line False expected target)
    (hs : target ≠ .sending) (hc : target ≠ .claimed) (error : DeliveryError) :
    @Assigns platform expected (errorCopy target error) (assignError target error) where
  toFollows := follows_errorCopy hl hs error
  assign_ofMessage _ _ _ _ := rfl
  not_claimed _ := hc

variable {principal : Principal} {id token : String} {tokens : Key → Uuid}

theorem requireClaimToken_of_presentable (hp : Presentable principal id token) :
    requireClaimToken token = .ok () := by
  simp [requireClaimToken, hp.token]

theorem Agrees.attempts_le (h : Agrees H writes s t) (k : Key) (m : OutboxMessage platform)
    (hf : s.find? principal id = some (k, m)) : m.attempts ≤ maxInteger :=
  h.attempts k m (find?_eq_some hf).1

theorem Agrees.markSending (h : Agrees H writes s t) (hp : Presentable principal id token)
    (htr : principal.trusted = true) {startedAt : DateTime} (hd : startedAt.Representable)
    (hcount : ∀ k m, s.find? principal id = some (k, m) → m.attempts < maxInteger) :
    Matches Eq False H s t (InMemoryOutbox.markSending principal id token startedAt s)
      (PostgresOutbox.markSending principal id token startedAt t) := by
  obtain ⟨time, htime⟩ := hd
  unfold InMemoryOutbox.markSending PostgresOutbox.markSending
  simp only [htime, requireTrustedPrincipal_of_trusted htr, requireClaimToken_of_presentable hp,
    Op.ofExcept_ok_bind]
  refine h.guarded hp htr ⟨follows_sendingCopy time, fun _ _ _ _ => rfl, by simp [sendingCopy]⟩
    (fun k m hf => hcount k m hf) fun m hm hst => ?_
  obtain ⟨hclaim, -, hpub⟩ := hm.of_claimed hst
  have hclaim' : (sendingCopy time m).lacksClaim = false := hclaim
  simp only [OutboxMessage.StateMetadata, OutboxMessage.requireStateMetadata, hclaim']
  simp [sendingCopy, hpub]

theorem Agrees.markPublished (h : Agrees H writes s t) (hp : Presentable principal id token)
    (htr : principal.trusted = true) {publishedAt : Option DateTime}
    (hd : ∀ d ∈ publishedAt, d.Representable) (clock : Instant) :
    Matches Eq False H s t (InMemoryOutbox.markPublished principal id token publishedAt clock s)
      (PostgresOutbox.markPublished principal id token publishedAt clock t) := by
  obtain ⟨time, htime⟩ : (publishedAt.getD (.ofInstant clock)).Representable := by
    cases publishedAt with
    | none => exact ⟨clock, DateTime.canonicalUtc_ofInstant clock⟩
    | some d => exact hd d rfl
  unfold InMemoryOutbox.markPublished PostgresOutbox.markPublished
  simp only [htime, requireTrustedPrincipal_of_trusted htr, requireClaimToken_of_presentable hp,
    Op.ofExcept_ok_bind]
  exact h.guarded hp htr ⟨follows_publishedCopy time, fun _ _ _ _ => rfl, by simp [publishedCopy]⟩
    (fun k m hf => h.attempts_le k m hf)
    fun m _ _ => rfl

theorem Agrees.terminalError (h : Agrees H writes s t) (hp : Presentable principal id token)
    (htr : principal.trusted = true) {target : DeliveryStatus}
    (htarget : target = .failed ∨ target = .uncertain) (error : DeliveryError) :
    Matches Eq False H s t (InMemoryOutbox.terminalError target principal id token error s)
      (PostgresOutbox.markTerminal target principal id token error t) := by
  unfold InMemoryOutbox.terminalError PostgresOutbox.markTerminal
  simp only [requireTrustedPrincipal_of_trusted htr, requireClaimToken_of_presentable hp,
    Op.ofExcept_ok_bind]
  refine h.guarded hp htr (assigns_errorCopy ?_ ?_ ?_ error)
    (fun k m hf => h.attempts_le k m hf) fun m hm hst => ?_
  · rcases htarget with rfl | rfl <;> trivial
  · rcases htarget with rfl | rfl <;> decide
  · rcases htarget with rfl | rfl <;> decide
  · obtain ⟨-, hsend, hatt, hpub⟩ := hm.of_sending hst
    obtain ⟨x, hx⟩ := Option.isSome_iff_exists.mp hsend
    rcases htarget with rfl | rfl <;>
      simp [OutboxMessage.StateMetadata, OutboxMessage.requireStateMetadata, errorCopy, clearClaim,
        OutboxMessage.retainsClaim, hx, hpub] <;> omega

theorem Agrees.markClaimFailed (h : Agrees H writes s t) (hp : Presentable principal id token)
    (htr : principal.trusted = true) (error : DeliveryError) :
    Matches Eq (∃ k m, s.find? principal id = some (k, m) ∧ m.claimToken = some token ∧
        m.dispatchStatus = .claimed ∧ 1 ≤ m.attempts) H s t
      (InMemoryOutbox.markClaimFailed principal id token error s)
      (PostgresOutbox.markClaimFailed principal id token error t) := by
  unfold InMemoryOutbox.markClaimFailed PostgresOutbox.markClaimFailed
  simp only [requireTrustedPrincipal_of_trusted htr, requireClaimToken_of_presentable hp,
    Op.ofExcept_ok_bind]
  refine (h.transition (assigns_errorCopy (show Line False .claimed .failed from trivial)
    (by decide) (by decide) error) htr hp.token hp.texts fun k m hf => h.attempts_le k m hf).mono ?_
  rintro ⟨k, m, hf, htok, hst, hnot⟩
  refine ⟨k, m, hf, htok, hst, Nat.one_le_iff_ne_zero.mpr fun hzero => hnot ?_⟩
  obtain ⟨-, hsend, hpub⟩ := (h.sound k m (find?_eq_some hf).1).metadata.of_claimed hst
  simp [OutboxMessage.StateMetadata, OutboxMessage.requireStateMetadata, errorCopy, clearClaim,
    OutboxMessage.retainsClaim, hsend, hpub, hzero]

theorem Agrees.release (h : Agrees H writes s t) (hp : Presentable principal id token)
    (htr : principal.trusted = true) {next : Option DateTime} (hd : ∀ d ∈ next, d.Representable) :
    Matches Eq False H s t (InMemoryOutbox.release principal id token next s)
      (PostgresOutbox.release principal id token next t) := by
  obtain ⟨time, htime⟩ := canonicalOption_of_representable hd "next_attempt_at"
  unfold InMemoryOutbox.release PostgresOutbox.release
  simp only [htime, requireTrustedPrincipal_of_trusted htr, requireClaimToken_of_presentable hp,
    Op.ofExcept_ok_bind]
  refine h.guarded hp htr ⟨follows_releasedCopy time, fun fp m hm hst => ?_, by simp [releasedCopy]⟩
    (fun k m hf => h.attempts_le k m hf) fun m hm hst => ?_
  · obtain ⟨-, hsend, -⟩ := hm.of_claimed hst
    simp [OutboxRow.patch, OutboxRow.withoutClaim, OutboxRow.ofMessage, releasedCopy, clearClaim, hsend]
  · obtain ⟨-, hsend, hpub⟩ := hm.of_claimed hst
    simp [OutboxMessage.StateMetadata, OutboxMessage.requireStateMetadata, releasedCopy, clearClaim,
      OutboxMessage.retainsClaim, hsend, hpub]

theorem Agrees.reschedule (h : Agrees H writes s t) (hp : Presentable principal id token)
    (htr : principal.trusted = true) {next : DateTime} (hd : next.Representable)
    (error : DeliveryError) :
    Matches Eq False H s t (InMemoryOutbox.reschedule principal id token next error s)
      (PostgresOutbox.reschedule principal id token next error t) := by
  obtain ⟨time, htime⟩ := hd
  unfold InMemoryOutbox.reschedule PostgresOutbox.reschedule
  simp only [htime, requireTrustedPrincipal_of_trusted htr, requireClaimToken_of_presentable hp,
    Op.ofExcept_ok_bind]
  refine h.guarded hp htr
    ⟨follows_rescheduledCopy time error, fun _ _ _ _ => rfl, by simp [rescheduledCopy]⟩
    (fun k m hf => h.attempts_le k m hf) fun m hm hst => ?_
  obtain ⟨-, -, -, hpub⟩ := hm.of_sending hst
  simp [OutboxMessage.StateMetadata, OutboxMessage.requireStateMetadata, rescheduledCopy, clearClaim,
    OutboxMessage.retainsClaim, hpub]

theorem Agrees.resolveUncertainDelivered (h : Agrees H writes s t)
    (hb : bindTexts [principal.tenantId, id] = .ok ()) (htr : principal.trusted = true)
    {publishedAt : DateTime} (hd : publishedAt.Representable) :
    Matches Eq False H s t (InMemoryOutbox.resolveUncertainDelivered principal id publishedAt s)
      (PostgresOutbox.resolveUncertainDelivered principal id publishedAt t) := by
  obtain ⟨time, htime⟩ := hd
  unfold InMemoryOutbox.resolveUncertainDelivered PostgresOutbox.resolveUncertainDelivered
  simp only [htime, Op.ofExcept_ok_bind]
  refine h.operatorTransition
    ⟨follows_deliveredCopy time, fun _ _ _ _ => rfl, by simp [publishedCopy]⟩ htr hb fun m hm hst => ?_
  obtain ⟨hclaim, -⟩ := hm.of_uncertain hst
  have hclaim' : (publishedCopy time m).retainsClaim = false := hclaim
  simp only [OutboxMessage.StateMetadata, OutboxMessage.requireStateMetadata, hclaim']
  simp [publishedCopy]

theorem Agrees.resolveUncertainRetry (h : Agrees H writes s t)
    (hb : bindTexts [principal.tenantId, id] = .ok ()) (htr : principal.trusted = true)
    {next : DateTime} (hd : next.Representable) :
    Matches Eq False H s t (InMemoryOutbox.resolveUncertainRetry principal id next s)
      (PostgresOutbox.resolveUncertainRetry principal id next t) := by
  obtain ⟨time, htime⟩ := hd
  unfold InMemoryOutbox.resolveUncertainRetry PostgresOutbox.resolveUncertainRetry
  simp only [htime, Op.ofExcept_ok_bind]
  refine h.operatorTransition
    ⟨follows_retryCopy time, fun _ _ _ _ => rfl, by simp [retryCopy]⟩ htr hb fun m hm hst => ?_
  obtain ⟨hclaim, -⟩ := hm.of_uncertain hst
  have hclaim' : (retryCopy time m).retainsClaim = false := hclaim
  simp only [OutboxMessage.StateMetadata, OutboxMessage.requireStateMetadata, hclaim']
  simp [retryCopy]

/-! ### Batches -/

/-- The checks of both backends accept the same owners, and an accepted one can be stored. -/
theorem requireClaimArguments_eq_ok {limit lease : Int} {owner o : String}
    (hl : requireLimit limit = .ok ()) (hs : requireLease lease = .ok ())
    (ho : normalizeOwner owner = .ok o) :
    requireClaimArguments limit owner lease = .ok o ∧ storable o = true := by
  have hl : (1 ≤ limit && limit ≤ MAX_CLAIM_LIMIT) = true := require_eq_ok.mp hl
  have hs : (1 ≤ lease && lease ≤ MAX_CLAIM_LEASE_SECONDS) = true := require_eq_ok.mp hs
  unfold normalizeOwner at ho
  obtain ⟨_, h₁, ho⟩ := except_bind_eq_ok.mp ho
  obtain ⟨_, -, ho⟩ := except_bind_eq_ok.mp ho
  obtain ⟨_, h₃, ho⟩ := except_bind_eq_ok.mp ho
  cases ho
  rw [require_eq_ok] at h₁ h₃
  refine ⟨by simp only [requireClaimArguments, hl, hs, h₁, h₃, Bool.and_true, require_true]; rfl, ?_⟩
  simp only [storable, List.all_eq_true, decide_eq_true_eq]
  rintro c hc rfl
  unfold isValidClaimOwner at h₃
  cases hcs : (strip owner).toList with
  | nil => simp [hcs] at hc
  | cons d ds =>
    rw [hcs] at hc h₃
    simp only [Bool.and_eq_true, List.all_eq_true] at h₃
    rcases List.mem_cons.mp hc with rfl | hc
    · exact absurd h₃.1.1 (by decide)
    · exact absurd (h₃.1.2 _ hc) (by decide)

theorem bindTexts_cons {x : String} {xs : List String} :
    bindTexts (x :: xs) = .ok () ↔ storable x = true ∧ bindTexts xs = .ok () := by
  simp [bindTexts]

/-- The `WHERE` of the claiming statement selects what the loop claims: an expired lease ends no earlier
than its message was due. -/
theorem Agrees.selectedForClaim (h : Agrees H writes s t) (now : Instant) (type : Option String)
    {e : Key × OutboxMessage platform} (he : e ∈ s.messagesByKey.entries) :
    PostgresOutbox.selectedForClaim principal now type (rowOf writes e) =
      claimable principal now type e.1 e.2 := by
  have htenant := h.found_rowOf he
  have hget := Dict.mem_entries.mp he
  have hmatch : matchesEventType type (rowOf writes e) = matchesType type e.2 := by
    cases type <;> rfl
  have hdue : e.2.dispatchStatus = .claimed → isExpired now e.2.claimedUntil = true →
      isDueTime now e.2.nextAttemptAt = true := by
    intro hst hexp
    cases hn : e.2.nextAttemptAt with
    | none => rfl
    | some next =>
      cases hu : e.2.claimedUntil with
      | none => simp [isExpired, hu] at hexp
      | some until_ =>
        have hle := h.lease e.1 e.2 hget hst next hn until_ hu
        simp only [isExpired, hu, decide_eq_true_eq] at hexp
        simpa [isDueTime] using hle.trans hexp
  unfold PostgresOutbox.selectedForClaim claimable
  rw [htenant, hmatch]
  change (decide (e.1.1 = principal.tenantId) && ((decide (e.2.dispatchStatus = .pending) &&
    isDueTime now e.2.nextAttemptAt) || (decide (e.2.dispatchStatus = .claimed) &&
    isExpired now e.2.claimedUntil)) && matchesType type e.2) = _
  rw [Bool.eq_iff_iff]
  simp only [Bool.and_eq_true, Bool.or_eq_true, decide_eq_true_eq]
  constructor
  · rintro ⟨⟨ht, ⟨hst, hd⟩ | ⟨hst, hexp⟩⟩, hm⟩
    · exact ⟨⟨⟨ht, hm⟩, .inl hst⟩, hd⟩
    · exact ⟨⟨⟨ht, hm⟩, .inr ⟨hst, hexp⟩⟩, hdue hst hexp⟩
  · rintro ⟨⟨⟨ht, hm⟩, hst | hst⟩, hd⟩
    · exact ⟨⟨ht, .inl ⟨hst, hd⟩⟩, hm⟩
    · exact ⟨⟨ht, .inr hst⟩, hm⟩

theorem Agrees.claimDue (h : Agrees H writes s t) (htr : principal.trusted = true)
    {now : DateTime} {limit lease : Int} {owner : String} {type : Option String}
    (hr : (OutboxCall.claimDue principal now limit owner lease type tokens :
      OutboxCall platform).InRange) :
    Matches List.Perm False H s t
      (InMemoryOutbox.claimDue principal now limit owner lease type tokens s)
      (PostgresOutbox.claimDue principal now limit owner lease type tokens t) := by
  obtain ⟨⟨time, until_, htime, hadd⟩, hl, ⟨o, ho⟩, hs, hb⟩ := hr
  obtain ⟨hargs, hstore⟩ := requireClaimArguments_eq_ok hl hs ho
  obtain ⟨hb₁, hb₂⟩ := bindTexts_cons.mp hb
  have hbind : bindTexts ([principal.tenantId, o] ++ type.toList) = .ok () :=
    bindTexts_cons.mpr ⟨hb₁, bindTexts_cons.mpr ⟨hstore, hb₂⟩⟩
  have hlimit : 1 ≤ limit := by
    have := require_eq_ok.mp hl
    simp only [Bool.and_eq_true, decide_eq_true_eq] at this
    exact this.1
  have hlease : 0 ≤ lease := by
    have := require_eq_ok.mp hs
    simp only [Bool.and_eq_true, decide_eq_true_eq] at this
    omega
  unfold InMemoryOutbox.claimDue PostgresOutbox.claimDue
  simp only [requireTrustedPrincipal_of_trusted htr, htime, hl, hs, ho, hargs, hadd, hbind,
    Op.ofExcept_ok_bind, Op.get_bind]
  have hcopy : ∀ e : Key × OutboxMessage platform, claimedCopy o time lease tokens e.1 e.2 = .ok
      { e.2 with
        dispatchStatus := .claimed
        claimToken := some ("claim_" ++ (tokens e.1).hex)
        claimOwner := some o
        claimedUntil := some until_ } := by
    intro e
    simp only [claimedCopy, hadd]
    rfl
  refine h.batch hlimit (fun e he => h.selectedForClaim time type he) (fun e _ _ => hcopy e)
    (fun e he hd => ?_) (fun e he hd => ?_)
  · have hs := h.sound e.1 e.2 (Dict.mem_entries.mp he)
    obtain ⟨-, hsound⟩ := claimedCopy_spec ho hs hd (hcopy e)
    refine ⟨hsound, rfl, rfl, rfl, fun _ next hnext u hu => ?_,
      h.attempts e.1 e.2 (Dict.mem_entries.mp he)⟩
    -- the message was due now, and the lease starts now
    cases hu
    simp only [claimable, Bool.and_eq_true] at hd
    have hdue := hd.2
    rw [Option.mem_def.mp hnext] at hdue
    exact (by simpa [isDueTime] using hdue : next ≤ time).trans (Instant.le_of_addSeconds hlease hadd)
  · have hk : ((rowOf writes e).tenantId, (rowOf writes e).idempotencyKey) = e.1 :=
      Prod.ext (h.found_rowOf he) (h.key e.1 e.2 (Dict.mem_entries.mp he))
    simp only [hk]
    rfl

theorem Agrees.sweepExpiredSending (h : Agrees H writes s t) (htr : principal.trusted = true)
    {now : DateTime} {limit : Int} {type : Option String} (error : DeliveryError)
    (hn : now.Representable) (hl : requireLimit limit = .ok ())
    (hb : bindTexts (principal.tenantId :: type.toList) = .ok ()) :
    Matches List.Perm False H s t
      (InMemoryOutbox.sweepExpiredSending principal now error limit type s)
      (PostgresOutbox.sweepExpiredSending principal now error limit type t) := by
  obtain ⟨time, htime⟩ := hn
  have hlimit := require_eq_ok.mp hl
  have hone : 1 ≤ limit := by
    simp only [Bool.and_eq_true, decide_eq_true_eq] at hlimit
    exact hlimit.1
  have hbind : bindTexts ([principal.tenantId] ++ type.toList) = .ok () := hb
  unfold InMemoryOutbox.sweepExpiredSending PostgresOutbox.sweepExpiredSending
  simp only [requireTrustedPrincipal_of_trusted htr, htime, hl, hlimit, require_true, hbind,
    Op.ofExcept_ok_bind, Op.get_bind]
  have hsending : ∀ e : Key × OutboxMessage platform,
      sweepable principal time type e.1 e.2 = true → e.2.dispatchStatus = .sending := by
    intro e hd
    simp only [sweepable, Bool.and_eq_true, decide_eq_true_eq] at hd
    exact hd.1.2
  refine h.batch (u := fun e => errorCopy .uncertain error e.2) hone (fun e he => ?_)
    (fun e he hd => errorCopy_uncertain_validates (h.sound e.1 e.2 (Dict.mem_entries.mp he))
      (hsending e hd) error) (fun e he hd => ?_) (fun e _ _ => rfl)
  · have hmatch : matchesEventType type (rowOf writes e) = matchesType type e.2 := by
      cases type <;> rfl
    unfold selectedForSweep sweepable
    rw [h.found_rowOf he, hmatch]
    rfl
  · have hs := h.sound e.1 e.2 (Dict.mem_entries.mp he)
    have hv := errorCopy_uncertain_validates hs (hsending e hd) error
    obtain ⟨-, hs'⟩ := hs.of_validate (n := errorCopy .uncertain error e.2) rfl rfl rfl
      (.inl rfl) (.inl rfl) hv
    exact ⟨hs', rfl, rfl, rfl, fun hc => by simp [errorCopy] at hc,
      h.attempts e.1 e.2 (Dict.mem_entries.mp he)⟩

theorem Agrees.listForTenant (h : Agrees H writes s t) (htr : principal.trusted = true)
    (hb : bindTexts [principal.tenantId] = .ok ()) :
    Matches List.Perm False H s t (InMemoryOutbox.listForTenant principal s)
      (PostgresOutbox.listForTenant principal t) := by
  unfold InMemoryOutbox.listForTenant PostgresOutbox.listForTenant
  simp only [requireTrustedPrincipal_of_trusted htr, hb, Op.ofExcept_ok_bind, Op.get_bind]
  have hfilter : t.filter (fun r => r.tenantId = principal.tenantId) =
      (s.messagesByKey.entries.filter fun e => e.1.1 = principal.tenantId).map (rowOf writes) := by
    rw [h.rows, List.filter_map]
    congr 1
    exact List.filter_congr fun e he => by simp only [Function.comp_apply, h.found_rowOf he]
  have hperm := List.perm_insertionSort PostgresOutbox.orderedBefore
    (t.filter fun r => r.tenantId = principal.tenantId)
  have hvalid : ∀ r ∈ (t.filter fun r => r.tenantId = principal.tenantId).insertionSort
      PostgresOutbox.orderedBefore, r.payload.modelValidate = .ok r.payload := by
    intro r hr
    have hr := List.mem_of_mem_filter (hperm.mem_iff.mp hr)
    rw [h.rows] at hr
    obtain ⟨e, he, rfl⟩ := List.mem_map.mp hr
    have hs := h.sound e.1 e.2 (Dict.mem_entries.mp he)
    have hok : e.2.requireStateMetadata = .ok () := hs.metadata
    change e.2.modelValidate = .ok e.2
    rw [hs.normal.modelValidate, hok]
    rfl
  have hlist := (hperm.map OutboxRow.payload).symm
  rw [hfilter, List.map_map] at hlist
  rw [mapM_eq_ok hvalid, hfilter]
  exact .returned writes hlist h

end Assigns

/-! ## Whole runs -/

/-- A call on an outbox, reading calls included. -/
inductive BackendCall (platform : Platform) where
  | change (call : OutboxCall platform)
  | listForTenant (principal : Principal)

namespace BackendCall

def run : BackendCall platform → InMemoryOutbox.Method platform (List (OutboxMessage platform))
  | change call => call.run
  | listForTenant p => InMemoryOutbox.listForTenant p

def runPostgres : BackendCall platform → PostgresOutbox.Method platform (List (OutboxMessage platform))
  | change call => call.runPostgres
  | listForTenant p => PostgresOutbox.listForTenant p

def InRange : BackendCall platform → Prop
  | change call => call.InRange
  | listForTenant p => storable p.tenantId = true

def hashed : BackendCall platform → Set String
  | change call => call.hashed
  | listForTenant _ => ∅

def Countable (s : InMemoryOutbox platform) : BackendCall platform → Prop
  | change call => call.Countable s
  | listForTenant _ => True

def FailsAttempted (s : InMemoryOutbox platform) : BackendCall platform → Prop
  | change call => call.FailsAttempted s
  | listForTenant _ => False

end BackendCall

theorem OutboxCall.single_error {σ : Type} {x : Op σ PyError (OutboxMessage platform)} {v : σ}
    {e : PyError} (h : x v = (.error e, v)) : OutboxCall.single x v = (.error e, v) :=
  Op.bind_error h

/-- An untrusted principal is turned away by both backends. -/
theorem OutboxCall.run_untrusted {call : OutboxCall platform} (hr : call.InRange)
    (htr : call.principal.trusted = false) :
    ∃ e, e.code? = some .authenticationRequired ∧ call.run s = (.error e, s) ∧
      call.runPostgres t = (.error e, t) := by
  obtain ⟨e, hcode, he⟩ : ∃ e : PyError, e.code? = some .authenticationRequired ∧
      requireTrustedPrincipal call.principal = .error e := by
    unfold requireTrustedPrincipal
    rw [htr]
    exact ⟨_, rfl, rfl⟩
  have htransition : ∀ {id token expected updates}, (InMemoryOutbox.transition call.principal id token
      expected updates : InMemoryOutbox.Method platform _) s = (.error e, s) := by
    intro id token expected updates
    rw [InMemoryOutbox.transition, he, Op.ofExcept_error_bind]
  have hoperator : ∀ {id updates}, (InMemoryOutbox.operatorTransition call.principal id updates :
      InMemoryOutbox.Method platform _) s = (.error e, s) := by
    intro id updates
    rw [InMemoryOutbox.operatorTransition, he, Op.ofExcept_error_bind]
  have hresolve : ∀ {id assign}, (PostgresOutbox.resolveUncertain call.principal id assign :
      PostgresOutbox.Method platform _) t = (.error e, t) := by
    intro id assign
    rw [PostgresOutbox.resolveUncertain, he, Op.ofExcept_error_bind]
  -- every method starts with the check, behind timestamp conversions that succeed in range
  have hfirst : ∀ {σ α : Type} {f : Unit → Op σ PyError α} (v : σ),
      (Op.ofExcept (requireTrustedPrincipal call.principal) >>= f) v = (.error e, v) := by
    intro σ α f v
    rw [he, Op.ofExcept_error_bind]
  have hafter : ∀ {σ α β : Type} {d : Except PyError β} {f : β → Op σ PyError α} {v : σ},
      (∃ b, d = .ok b) → (∀ b, f b v = (.error e, v)) → (Op.ofExcept d >>= f) v = (.error e, v) := by
    rintro σ α β _ f v ⟨b, rfl⟩ hf
    exact hf b
  refine ⟨e, hcode, ?_⟩
  cases call with
  | add p event key next id fresh now =>
    exact ⟨single_error (hfirst s), single_error (hfirst t)⟩
  | claimDue p now limit owner lease type tokens => exact ⟨hfirst s, hfirst t⟩
  | markSending p id token startedAt =>
    obtain ⟨-, time, htime⟩ := hr
    exact ⟨single_error (hafter ⟨time, htime _⟩ fun _ => htransition), single_error (hfirst t)⟩
  | markClaimFailed p id token error => exact ⟨single_error htransition, single_error (hfirst t)⟩
  | markPublished p id token publishedAt clock =>
    have htime : ∃ time, (publishedAt.getD (.ofInstant clock)).canonicalUtc "published_at" = .ok time := by
      cases publishedAt with
      | none => exact ⟨clock, DateTime.canonicalUtc_ofInstant clock _⟩
      | some d =>
        obtain ⟨time, htime⟩ := hr.2 d rfl
        exact ⟨time, htime _⟩
    exact ⟨single_error (hafter htime fun _ => htransition), single_error (hfirst t)⟩
  | markFailed p id token error => exact ⟨single_error htransition, single_error (hfirst t)⟩
  | markUncertain p id token error => exact ⟨single_error htransition, single_error (hfirst t)⟩
  | release p id token next =>
    exact ⟨single_error (hafter (canonicalOption_of_representable hr.2 _) fun _ => htransition),
      single_error (hfirst t)⟩
  | reschedule p id token next error =>
    obtain ⟨-, time, htime⟩ := hr
    exact ⟨single_error (hafter ⟨time, htime _⟩ fun _ => htransition), single_error (hfirst t)⟩
  | sweepExpiredSending p now error limit type => exact ⟨hfirst s, hfirst t⟩
  | resolveUncertainDelivered p id publishedAt =>
    obtain ⟨-, time, htime⟩ := hr
    exact ⟨single_error (hafter ⟨time, htime _⟩ fun _ => hoperator),
      single_error (hafter ⟨time, htime _⟩ fun _ => hresolve)⟩
  | resolveUncertainRetry p id next =>
    obtain ⟨-, time, htime⟩ := hr
    exact ⟨single_error (hafter ⟨time, htime _⟩ fun _ => hoperator),
      single_error (hafter ⟨time, htime _⟩ fun _ => hresolve)⟩

/-- Every call in range matches on related states. -/
theorem OutboxCall.matches_run (h : Agrees H writes s t) (hcf : Set.InjOn platform.sha256 H)
    {call : OutboxCall platform} (hr : call.InRange) (hh : call.hashed ⊆ H) (hc : call.Countable s) :
    Matches List.Perm (call.FailsAttempted s) H s t (call.run s) (call.runPostgres t) := by
  cases htr : call.principal.trusted with
  | false =>
    obtain ⟨e, hcode, h₁, h₂⟩ := run_untrusted (s := s) (t := t) hr htr
    rw [h₁, h₂]
    exact .raised _ hcode hcode
  | true =>
    cases call with
    | add p event key next id fresh now =>
      obtain ⟨time, htime⟩ := canonicalOption_of_representable hr.2 "next_attempt_at"
      exact (h.add hcf hr.1 htr htime fun x hx => hh ⟨time, htime, hx⟩).single
    | claimDue p now limit owner lease type tokens => exact h.claimDue htr hr
    | markSending p id token startedAt => exact (h.markSending hr.1 htr hr.2 hc).single
    | markClaimFailed p id token error =>
      exact ((h.markClaimFailed hr htr error).mono fun hf => ⟨htr, hf⟩).single
    | markPublished p id token publishedAt clock =>
      exact (h.markPublished hr.1 htr hr.2 clock).single
    | markFailed p id token error => exact (h.terminalError hr htr (.inl rfl) error).single
    | markUncertain p id token error => exact (h.terminalError hr htr (.inr rfl) error).single
    | release p id token next => exact (h.release hr.1 htr hr.2).single
    | reschedule p id token next error => exact (h.reschedule hr.1 htr hr.2 error).single
    | sweepExpiredSending p now error limit type =>
      exact h.sweepExpiredSending htr error hr.1 hr.2.1 hr.2.2
    | resolveUncertainDelivered p id publishedAt =>
      exact (h.resolveUncertainDelivered hr.1 htr hr.2).single
    | resolveUncertainRetry p id next => exact (h.resolveUncertainRetry hr.1 htr hr.2).single

theorem BackendCall.matches_run (h : Agrees H writes s t) (hcf : Set.InjOn platform.sha256 H)
    {call : BackendCall platform} (hr : call.InRange) (hh : call.hashed ⊆ H) (hc : call.Countable s) :
    Matches List.Perm (call.FailsAttempted s) H s t (call.run s) (call.runPostgres t) := by
  cases call with
  | change call => exact call.matches_run h hcf hr hh hc
  | listForTenant p =>
    cases htr : p.trusted with
    | true =>
      have hb : PostgresOutbox.bindTexts [p.tenantId] = .ok () := by
        have hr : storable p.tenantId = true := hr
        simp [PostgresOutbox.bindTexts, hr]
      exact h.listForTenant htr hb
    | false =>
      simp only [run, runPostgres, InMemoryOutbox.listForTenant, PostgresOutbox.listForTenant,
        requireTrustedPrincipal, htr, Bool.false_eq_true, if_false, Op.ofExcept_error_bind]
      exact .raised .authenticationRequired rfl rfl

/-- States of an in-memory outbox and of a table after the same calls in range, from empty ones. -/
inductive BothReach (H : Set String) : InMemoryOutbox platform → OutboxTable platform → Prop where
  | empty : BothReach H .empty []
  | call {s : InMemoryOutbox platform} {t : OutboxTable platform} (c : BackendCall platform) :
      BothReach H s t → c.InRange → c.hashed ⊆ H → c.Countable s →
      BothReach H (c.run s).2 (c.runPostgres t).2

theorem Matches.agrees {α : Type} {R : α → α → Prop} {p : Prop} (h : Agrees H writes s t)
    {x : Except PyError α × InMemoryOutbox platform} {y : Except PyError α × OutboxTable platform}
    (hm : Matches R p H s t x y) : ∃ writes, Agrees H writes x.2 y.2 := by
  cases hm with
  | returned writes _ hA => exact ⟨writes, hA⟩
  | raised => exact ⟨writes, h⟩
  | refused => exact ⟨writes, h⟩

theorem Agrees.empty (H : Set String) (writes : Key → OutboxWrite) :
    Agrees H writes (.empty : InMemoryOutbox platform) [] := by
  have hnone : ∀ k, (InMemoryOutbox.empty : InMemoryOutbox platform).messagesByKey.get? k = none :=
    fun _ => rfl
  refine ⟨⟨?_, ?_, ?_, ?_, ?_, ?_⟩, rfl, ?_, ?_⟩
  all_goals
    try intro k m hm; simp [hnone] at hm
  · intro tenant id key; simp [InMemoryOutbox.empty]
  · intro tenant id key; simp [InMemoryOutbox.empty]

theorem BothReach.agrees (hcf : Set.InjOn platform.sha256 H) (h : BothReach H s t) :
    ∃ writes, Agrees H writes s t := by
  induction h with
  | empty => exact ⟨fun _ => ⟨⟨"", "", "", "", none, "", "", none, none, none, none, [], ⟨0, Nat.zero_le _⟩⟩,
      none, none⟩, .empty H _⟩
  | call c _ hr hh hc ih =>
    obtain ⟨writes, hA⟩ := ih
    exact (c.matches_run hA hcf hr hh hc).agrees hA

def sampleToken : String := "claim_" ++ Uuid.zero.hex

def sampleTime : DateTime := .ofInstant ⟨0, Nat.zero_le _⟩

def sampleError : DeliveryError := ⟨.network, .timeout, none, ⟨0, Nat.zero_le _⟩⟩

def sampleClaim : OutboxCall samplePlatform :=
  .claimDue .sample sampleTime 1 "worker-1" 60 none fun _ => .zero

/-- Add a message, claim it, start sending, reschedule it after a transient failure and claim it again. -/
def sampleCalls : List (OutboxCall samplePlatform) :=
  [sampleAdd, sampleClaim, .markSending .sample "out-1" sampleToken sampleTime,
    .reschedule .sample "out-1" sampleToken sampleTime sampleError, sampleClaim]

def sampleState (n : Nat) : InMemoryOutbox samplePlatform :=
  (sampleCalls.take n).foldl (fun s c => (c.run s).2) .empty

end PersonalAssistant
