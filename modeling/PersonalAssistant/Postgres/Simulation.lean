import Mathlib.Data.List.Find
import PersonalAssistant.Lib.Lists
import PersonalAssistant.Postgres.Outbox

/-!
# Simulating the in-memory outbox by rows

`Agrees` relates an in-memory outbox to a table that holds one row per stored message, in the same
order. Every statement of the PostgreSQL backend selects the rows of the messages its in-memory
counterpart updates, and assigns to them what the row of the updated message holds; so related states
stay related and both return the same messages.
-/
namespace PersonalAssistant

open Lib InMemoryOutbox

variable {platform : Platform}

/-! ## Rows of messages -/

/-- The row that stores a message. -/
def OutboxRow.ofMessage (fingerprint : Digest) (m : OutboxMessage platform) : OutboxRow platform where
  tenantId := m.tenantId
  idempotencyKey := m.idempotencyKey
  messageId := m.id
  eventId := m.event.id
  dispatchStatus := m.dispatchStatus
  claimToken := m.claimToken
  claimOwner := m.claimOwner
  claimedUntil := m.claimedUntil
  nextAttemptAt := m.nextAttemptAt
  attempts := m.attempts
  createdAt := m.createdAt
  publishedAt := m.publishedAt
  eventPayload := m.event
  fingerprint := fingerprint
  sendingAt := m.sendingAt
  lastErrorCategory := m.lastError.map DeliveryError.category
  lastErrorCode := m.lastError.map DeliveryError.code
  lastErrorProviderCode := m.lastError.bind DeliveryError.providerCode
  lastErrorAt := m.lastError.map DeliveryError.occurredAt
  payload := m

namespace OutboxMessage

/-- The texts of a claim, where there are any, are not empty. -/
structure Legible (m : OutboxMessage platform) : Prop where
  claimToken : ∀ t ∈ m.claimToken, t ≠ ""
  claimOwner : ∀ t ∈ m.claimOwner, t ≠ ""

theorem isBlank_eq_isNone {s : Option String} (h : ∀ t ∈ s, t ≠ "") : isBlank s = s.isNone := by
  cases s with
  | none => rfl
  | some t => simp [isBlank, h t rfl]

/-- The `CHECK`s accept the row of a message exactly when the model accepts the message. -/
theorem check_ofMessage {m : OutboxMessage platform} (h : m.Legible) (fingerprint : Digest) :
    (OutboxRow.ofMessage fingerprint m).check = true ↔ m.StateMetadata := by
  have htok := isBlank_eq_isNone h.claimToken
  have hown := isBlank_eq_isNone h.claimOwner
  unfold StateMetadata requireStateMetadata lacksClaim
  rw [htok, hown]
  obtain ⟨_, _, _, _, status, token, owner, until_, _, attempts, _, sendingAt, publishedAt, error⟩ := m
  simp only [OutboxRow.check, OutboxRow.errorShapeCheck, OutboxRow.stateMetadataCheck,
    OutboxRow.ofMessage, retainsClaim]
  cases status <;> cases error <;> simp [Option.isSome_iff_ne_none] <;> grind

/-- A violation of the state metadata is a `ValidationError`. -/
theorem requireStateMetadata_error {m : OutboxMessage platform} {e : PyError}
    (h : m.requireStateMetadata = .error e) : e.code? = none := by
  unfold requireStateMetadata at h
  split at h <;> split_ifs at h <;> cases h <;> rfl

theorem StateMetadata.legible {m : OutboxMessage platform} (h : m.StateMetadata) : m.Legible := by
  have hblank : m.retainsClaim = false ∨ m.lacksClaim = false := by
    unfold StateMetadata requireStateMetadata at h
    cases hs : m.dispatchStatus <;> simp only [hs] at h <;> split_ifs at h <;> simp_all
  constructor <;> rintro t ht rfl <;>
    rw [Option.mem_def] at ht <;> simp [retainsClaim, lacksClaim, isBlank, ht] at hblank

end OutboxMessage

/-! ## Hashed documents -/

/-- The hashed arguments of the `add` that stored a message. -/
structure OutboxWrite where
  event : CloudEventFields
  nextAttemptAt : Option Instant
  messageId : Option String

namespace OutboxWrite

def document (w : OutboxWrite) : Json :=
  InMemoryOutbox.writeDocument w.event w.nextAttemptAt w.messageId

def postgresDocument (w : OutboxWrite) : Json :=
  PostgresOutbox.writeDocument w.event w.nextAttemptAt w.messageId

/-- The texts both backends hash for a write. -/
def hashed (w : OutboxWrite) : Set String := {jsonText w.document, jsonText w.postgresDocument}

/-- A bare event and a document that wraps one have different members. -/
theorem json_ne_writeDocument (e f : CloudEventFields) (next : Option Instant) (id : Option String) :
    CloudEvent.json e ≠ InMemoryOutbox.writeDocument f next id := by
  intro h
  simp [CloudEvent.json, InMemoryOutbox.writeDocument] at h

theorem document_eq_iff {w w' : OutboxWrite} :
    w.document = w'.document ↔ CloudEvent.json w.event = CloudEvent.json w'.event ∧
      w.messageId = w'.messageId ∧ w.nextAttemptAt = w'.nextAttemptAt := by
  have hnext : Function.Injective fun t : Option Instant => CloudEvent.textJson (t.map Instant.str) :=
    CloudEvent.textJson_injective.comp (Option.map_injective Instant.str_injective)
  simp only [document, InMemoryOutbox.writeDocument, Json.obj.injEq, List.cons.injEq, Prod.mk.injEq,
    true_and, and_true]
  exact and_congr_right fun _ => and_congr CloudEvent.textJson_injective.eq_iff hnext.eq_iff

/-- Both backends distinguish the same writes. -/
theorem postgresDocument_eq_iff {w w' : OutboxWrite} :
    w.postgresDocument = w'.postgresDocument ↔ w.document = w'.document := by
  obtain ⟨e, next, id⟩ := w
  obtain ⟨e', next', id'⟩ := w'
  have hbare := json_ne_writeDocument
  rw [document_eq_iff]
  constructor
  · intro h
    cases hw : next.isSome || id.isSome <;> cases hw' : next'.isSome || id'.isSome <;>
      simp only [postgresDocument, PostgresOutbox.writeDocument, hw, hw', if_true, if_false,
        Bool.false_eq_true] at h
    · simp only [Bool.or_eq_false_iff, Option.isSome_eq_false_iff, Option.isNone_iff_eq_none] at hw hw'
      simp_all
    · exact absurd h (hbare _ _ _ _)
    · exact absurd h.symm (hbare _ _ _ _)
    · exact (@document_eq_iff ⟨e, next, id⟩ ⟨e', next', id'⟩).mp h
  · rintro ⟨he, rfl, rfl⟩
    have he : CloudEvent.json e = CloudEvent.json e' := he
    simp only [postgresDocument, PostgresOutbox.writeDocument, InMemoryOutbox.writeDocument, he]

variable {H : Set String}

/-- Without collisions among the hashed texts, both backends compare fingerprints alike. -/
theorem fingerprint_eq_iff (hcf : Set.InjOn platform.sha256 H) {w w' : OutboxWrite}
    (hw : w.hashed ⊆ H) (hw' : w'.hashed ⊆ H) :
    platform.fingerprint w.postgresDocument = platform.fingerprint w'.postgresDocument ↔
      platform.fingerprint w.document = platform.fingerprint w'.document := by
  have hdoc : ∀ {d d' : Json}, jsonText d ∈ H → jsonText d' ∈ H →
      (platform.fingerprint d = platform.fingerprint d' ↔ d = d') := by
    intro d d' hd hd'
    exact (hcf.eq_iff hd hd').trans jsonText_injective.eq_iff
  rw [hdoc (hw (by simp [hashed])) (hw' (by simp [hashed])),
    hdoc (hw (by simp [hashed])) (hw' (by simp [hashed])), postgresDocument_eq_iff]

end OutboxWrite

/-! ## Related states -/

/-- What the maps of an outbox know about each other. -/
structure InMemoryOutbox.Coherent (s : InMemoryOutbox platform) : Prop where
  sound : Inv s
  key : ∀ k m, s.messagesByKey.get? k = some m → m.idempotencyKey = k.2
  byMessageId : ∀ tenant id key, s.keyByMessageId.get? (tenant, id) = some key ↔
    ∃ m, s.messagesByKey.get? (tenant, key) = some m ∧ m.id = id
  byEventId : ∀ tenant id key, s.keyByEventId.get? (tenant, id) = some key ↔
    ∃ m, s.messagesByKey.get? (tenant, key) = some m ∧ m.event.id = id
  /-- A claim does not end before its message was due, so an expired claim is due. -/
  lease : ∀ k m, s.messagesByKey.get? k = some m → m.dispatchStatus = .claimed →
    ∀ next ∈ m.nextAttemptAt, ∀ until_ ∈ m.claimedUntil, next ≤ until_
  attempts : ∀ k m, s.messagesByKey.get? k = some m → m.attempts ≤ maxInteger

/-- The row of a stored message. -/
def rowOf (writes : Key → OutboxWrite) (e : Key × OutboxMessage platform) : OutboxRow platform :=
  .ofMessage (platform.fingerprint (writes e.1).postgresDocument) e.2

/-- The table holds the rows of the stored messages, in order, and both backends keep the fingerprint
of the same write; `H` collects the hashed texts. -/
structure Agrees (H : Set String) (writes : Key → OutboxWrite) (s : InMemoryOutbox platform)
    (t : OutboxTable platform) : Prop extends s.Coherent where
  rows : t = s.messagesByKey.entries.map (rowOf writes)
  fingerprints : ∀ k m, s.messagesByKey.get? k = some m →
    s.fingerprints.get? k = some (platform.fingerprint (writes k).document)
  hashed : ∀ k m, s.messagesByKey.get? k = some m → (writes k).hashed ⊆ H

variable {H : Set String} {writes : Key → OutboxWrite} {s : InMemoryOutbox platform}
  {t : OutboxTable platform}

/-- Storing updates of existing messages keeps their places. -/
theorem InMemoryOutbox.entries_setMessages {done : List (Key × OutboxMessage platform)}
    (hn : (done.map Prod.fst).Nodup)
    (hk : ∀ k ∈ done.map Prod.fst, k ∈ s.messagesByKey.entries.map Prod.fst) :
    (s.setMessages done).messagesByKey.entries =
      s.messagesByKey.entries.map fun e => (e.1, (Dict.get? ⟨done, hn⟩ e.1).getD e.2) := by
  induction done generalizing s with
  | nil => exact (List.map_id _).symm
  | cons d done ih =>
    obtain ⟨k, m⟩ := d
    have hcons := List.nodup_cons.mp hn
    simp only [List.map_cons, List.forall_mem_cons] at hk
    have hset := Dict.entries_set_of_mem (d := s.messagesByKey) m hk.1
    have hkeys : ((s.setMessage k m).messagesByKey.entries.map Prod.fst) =
        s.messagesByKey.entries.map Prod.fst := by
      rw [messagesByKey_setMessage, hset, List.map_map]
      refine List.map_congr_left fun e _ => ?_
      by_cases he : e.1 = k <;> simp [he]
    rw [setMessages, List.foldl_cons, ← setMessages, ih hcons.2 (by rw [hkeys]; exact hk.2),
      messagesByKey_setMessage, hset, List.map_map]
    refine List.map_congr_left fun e _ => ?_
    have hnone : Dict.get? ⟨done, hcons.2⟩ k = none := Dict.get?_eq_none_iff.mpr hcons.1
    have hget : Dict.get? ⟨(k, m) :: done, hn⟩ e.1 =
        if e.1 = k then some m else Dict.get? ⟨done, hcons.2⟩ e.1 :=
      Dict.lookup_cons_ite (k, m) done e.1
    rw [hget]
    by_cases he : e.1 = k <;> simp [he, hnone]

theorem InMemoryOutbox.get?_setMessages_map {sel : List (Key × OutboxMessage platform)}
    {u : Key × OutboxMessage platform → OutboxMessage platform}
    (hsel : ∀ e ∈ sel, e ∈ s.messagesByKey.entries) (hn : (sel.map Prod.fst).Nodup) (k : Key) :
    (s.setMessages (sel.map fun e => (e.1, u e))).messagesByKey.get? k = s.messagesByKey.get? k ∨
      ∃ e ∈ sel, e.1 = k ∧ s.messagesByKey.get? k = some e.2 ∧
        (s.setMessages (sel.map fun e => (e.1, u e))).messagesByKey.get? k = some (u e) := by
  have hfst : (sel.map fun e => (e.1, u e)).map Prod.fst = sel.map Prod.fst := by
    rw [List.map_map]; rfl
  by_cases hk : k ∈ sel.map Prod.fst
  · obtain ⟨e, he, rfl⟩ := List.mem_map.mp hk
    refine .inr ⟨e, he, rfl, Dict.mem_entries.mp (hsel e he), ?_⟩
    exact get?_setMessages_of_mem (by rw [hfst]; exact hn)
      (List.mem_map.mpr ⟨e, he, rfl⟩ : (e.1, u e) ∈ _)
  · exact .inl (get?_setMessages_of_not_mem (by rw [hfst]; exact hk))

/-- What an update of stored messages must keep. -/
structure Keeps (k : Key) (m m' : OutboxMessage platform) : Prop where
  sound : Sound k m'
  id : m'.id = m.id
  event : m'.event = m.event
  idempotencyKey : m'.idempotencyKey = m.idempotencyKey
  lease : m'.dispatchStatus = .claimed →
    ∀ next ∈ m'.nextAttemptAt, ∀ until_ ∈ m'.claimedUntil, next ≤ until_
  attempts : m'.attempts ≤ maxInteger

/-- A kept message passes validation again. -/
theorem Keeps.modelValidate {k : Key} {m m' : OutboxMessage platform} (h : Keeps k m m') :
    m'.modelValidate = .ok m' := by
  have hok : m'.requireStateMetadata = .ok () := h.sound.metadata
  rw [h.sound.normal.modelValidate, hok]
  rfl

section Update

variable {sel : List (Key × OutboxMessage platform)}
  {u : Key × OutboxMessage platform → OutboxMessage platform}

theorem InMemoryOutbox.Coherent.update (h : s.Coherent)
    (hsel : ∀ e ∈ sel, e ∈ s.messagesByKey.entries) (hn : (sel.map Prod.fst).Nodup)
    (hu : ∀ e ∈ sel, Keeps e.1 e.2 (u e)) :
    (s.setMessages (sel.map fun e => (e.1, u e))).Coherent := by
  obtain ⟨hi₁, hi₂, -⟩ := s.setMessages_indexes (sel.map fun e => (e.1, u e))
  -- every stored message is an old one or a kept one
  have hget : ∀ k, (∀ m, s.messagesByKey.get? k = some m →
      ∃ m', (s.setMessages (sel.map fun e => (e.1, u e))).messagesByKey.get? k = some m' ∧
        (m' = m ∨ Keeps k m m')) ∧
      ∀ m', (s.setMessages (sel.map fun e => (e.1, u e))).messagesByKey.get? k = some m' →
        ∃ m, s.messagesByKey.get? k = some m ∧ (m' = m ∨ Keeps k m m') := by
    intro k
    rcases get?_setMessages_map (u := u) hsel hn k with hk | ⟨e, he, rfl, hm, hm'⟩
    · rw [hk]
      exact ⟨fun m hm => ⟨m, hm, .inl rfl⟩, fun m hm => ⟨m, hm, .inl rfl⟩⟩
    · rw [hm, hm']
      refine ⟨?_, ?_⟩ <;> rintro _ ⟨⟩
      · exact ⟨_, rfl, .inr (hu e he)⟩
      · exact ⟨_, rfl, .inr (hu e he)⟩
  refine ⟨?_, ?_, ?_, ?_, ?_, ?_⟩
  · intro k m' hm'
    obtain ⟨m, hm, rfl | hk⟩ := (hget k).2 m' hm'
    · exact h.sound k _ hm
    · exact hk.sound
  · intro k m' hm'
    obtain ⟨m, hm, rfl | hk⟩ := (hget k).2 m' hm'
    · exact h.key k _ hm
    · rw [hk.idempotencyKey, h.key k m hm]
  · intro tenant id key
    rw [hi₁, h.byMessageId]
    constructor
    · rintro ⟨m, hm, rfl⟩
      obtain ⟨m', hm', rfl | hk⟩ := (hget _).1 m hm
      · exact ⟨_, hm', rfl⟩
      · exact ⟨m', hm', hk.id⟩
    · rintro ⟨m', hm', rfl⟩
      obtain ⟨m, hm, rfl | hk⟩ := (hget _).2 m' hm'
      · exact ⟨_, hm, rfl⟩
      · exact ⟨m, hm, hk.id.symm⟩
  · intro tenant id key
    rw [hi₂, h.byEventId]
    constructor
    · rintro ⟨m, hm, rfl⟩
      obtain ⟨m', hm', rfl | hk⟩ := (hget _).1 m hm
      · exact ⟨_, hm', rfl⟩
      · exact ⟨m', hm', by rw [hk.event]⟩
    · rintro ⟨m', hm', rfl⟩
      obtain ⟨m, hm, rfl | hk⟩ := (hget _).2 m' hm'
      · exact ⟨_, hm, rfl⟩
      · exact ⟨m, hm, by rw [hk.event]⟩
  · intro k m' hm'
    obtain ⟨m, hm, rfl | hk⟩ := (hget k).2 m' hm'
    · exact h.lease k _ hm
    · exact hk.lease
  · intro k m' hm'
    obtain ⟨m, hm, rfl | hk⟩ := (hget k).2 m' hm'
    · exact h.attempts k _ hm
    · exact hk.attempts

/-- Updating chosen messages and assigning to their rows keeps the states related. -/
theorem Agrees.update (h : Agrees H writes s t) (sel : List (Key × OutboxMessage platform))
    (u : Key × OutboxMessage platform → OutboxMessage platform) (chosen : OutboxRow platform → Bool)
    (assign : OutboxRow platform → OutboxRow platform)
    (hsel : ∀ e ∈ sel, e ∈ s.messagesByKey.entries) (hn : (sel.map Prod.fst).Nodup)
    (hu : ∀ e ∈ sel, Keeps e.1 e.2 (u e))
    (hchosen : ∀ e ∈ s.messagesByKey.entries, chosen (rowOf writes e) = true ↔ e ∈ sel)
    (hassign : ∀ e ∈ sel, assign (rowOf writes e) = rowOf writes (e.1, u e)) :
    Agrees H writes (s.setMessages (sel.map fun e => (e.1, u e)))
      (t.map fun r => if chosen r then assign r else r) := by
  obtain ⟨-, -, hfp⟩ := s.setMessages_indexes (sel.map fun e => (e.1, u e))
  have hfst : (sel.map fun e => (e.1, u e)).map Prod.fst = sel.map Prod.fst := by
    rw [List.map_map]; rfl
  have hold : ∀ k m', (s.setMessages (sel.map fun e => (e.1, u e))).messagesByKey.get? k = some m' →
      ∃ m, s.messagesByKey.get? k = some m := by
    intro k m' hm'
    rcases get?_setMessages_map (u := u) hsel hn k with hk | ⟨e, -, rfl, hm, -⟩
    · exact ⟨m', hk ▸ hm'⟩
    · exact ⟨e.2, hm⟩
  refine ⟨h.toCoherent.update hsel hn hu, ?_, ?_, ?_⟩
  · have hkeys : ∀ k ∈ (sel.map fun e => (e.1, u e)).map Prod.fst,
        k ∈ s.messagesByKey.entries.map Prod.fst := by
      intro k hk
      obtain ⟨e, he, rfl⟩ := List.mem_map.mp (hfst ▸ hk)
      exact List.mem_map_of_mem (hsel e he)
    have hn' : ((sel.map fun e => (e.1, u e)).map Prod.fst).Nodup := hfst ▸ hn
    rw [entries_setMessages hn' hkeys, h.rows, List.map_map, List.map_map]
    refine List.map_congr_left fun e he => ?_
    simp only [Function.comp_apply]
    by_cases hs : e ∈ sel
    · have hl : Dict.get? ⟨_, hn'⟩ e.1 = some (u e) :=
        Dict.get?_eq_some_iff.mpr (List.mem_map.mpr ⟨e, hs, rfl⟩)
      rw [if_pos ((hchosen e he).mpr hs), hassign e hs, hl, Option.getD_some]
    · have hl : Dict.get? ⟨_, hn'⟩ e.1 = none := by
        refine Dict.get?_eq_none_iff.mpr fun hmem => hs ?_
        obtain ⟨d, hd, hkey⟩ := List.mem_map.mp (hfst ▸ hmem)
        have hval := Dict.mem_entries.mp (hsel d hd)
        rw [hkey, Dict.mem_entries.mp he] at hval
        exact Prod.ext hkey (Option.some.inj hval).symm ▸ hd
      rw [if_neg fun hc => hs ((hchosen e he).mp hc), hl, Option.getD_none]
  · intro k m' hm'
    obtain ⟨m, hm⟩ := hold k m' hm'
    rw [hfp, h.fingerprints k m hm]
  · intro k m' hm'
    obtain ⟨m, hm⟩ := hold k m' hm'
    exact h.hashed k m hm

end Update

/-- Outcomes of one call on two related states: both return related values and leave related states, or
both raise and change nothing, with the same code of an `AssistantError` unless the state metadata
refused the update. -/
inductive Matches {α : Type} (R : α → α → Prop) (refused : Prop) (H : Set String)
    (s : InMemoryOutbox platform) (t : OutboxTable platform) :
    Except PyError α × InMemoryOutbox platform → Except PyError α × OutboxTable platform → Prop where
  | returned {a b : α} {s' : InMemoryOutbox platform} {t' : OutboxTable platform}
      (writes : Key → OutboxWrite) : R a b → Agrees H writes s' t' →
      Matches R refused H s t (.ok a, s') (.ok b, t')
  | raised {e e' : PyError} (code : ErrorCode) : e.code? = some code → e'.code? = some code →
      Matches R refused H s t (.error e, s) (.error e', t)
  | refused {e e' : PyError} : refused → e.code? = none → e'.code? = none →
      Matches R refused H s t (.error e, s) (.error e', t)

/-! ## One row -/

section Row

variable {principal : Principal} {messageId : String}

theorem Agrees.eq_of_id (h : Agrees H writes s t) {a b : Key × OutboxMessage platform}
    (ha : a ∈ s.messagesByKey.entries) (hb : b ∈ s.messagesByKey.entries) (ht : a.1.1 = b.1.1)
    (hid : a.2.id = b.2.id) : a = b := by
  have ha := Dict.mem_entries.mp ha
  have hb := Dict.mem_entries.mp hb
  have h₁ := (h.byMessageId a.1.1 a.2.id a.1.2).mpr ⟨a.2, ha, rfl⟩
  have h₂ := (h.byMessageId a.1.1 a.2.id b.1.2).mpr ⟨b.2, by rw [ht]; exact hb, hid.symm⟩
  have hk : a.1 = b.1 := Prod.ext ht (Option.some.inj (h₁.symm.trans h₂))
  rw [hk, hb] at ha
  exact Prod.ext hk (Option.some.inj ha).symm

theorem Agrees.found_rowOf (h : Agrees H writes s t) {e : Key × OutboxMessage platform}
    (he : e ∈ s.messagesByKey.entries) : (rowOf writes e).tenantId = e.1.1 :=
  (h.sound e.1 e.2 (Dict.mem_entries.mp he)).tenant

/-- Both backends look up the same message. -/
theorem Agrees.find?_row (h : Agrees H writes s t) :
    (t.find? fun r => r.tenantId = principal.tenantId && r.messageId = messageId) =
      (s.find? principal messageId).map (rowOf writes) := by
  rw [h.rows, List.find?_map, InMemoryOutbox.find?]
  congr 1
  refine List.find?_congr fun e he => ?_
  simp only [Function.comp_apply, h.found_rowOf he]
  rfl

theorem Agrees.find?_row_and (h : Agrees H writes s t) (more : OutboxRow platform → Bool) :
    (t.find? fun r => (r.tenantId = principal.tenantId && r.messageId = messageId) && more r) =
      ((s.find? principal messageId).map (rowOf writes)).filter more := by
  rw [find?_and, h.find?_row]
  intro a ha b hb hpa hpb
  rw [h.rows, List.mem_map] at ha hb
  obtain ⟨a, ha, rfl⟩ := ha
  obtain ⟨b, hb, rfl⟩ := hb
  simp only [Bool.and_eq_true, decide_eq_true_eq, h.found_rowOf ha, h.found_rowOf hb] at hpa hpb
  rw [h.eq_of_id ha hb (hpa.1.trans hpb.1.symm) (hpa.2.trans hpb.2.symm)]

variable {more : OutboxRow platform → Bool} {assign : OutboxRow platform → OutboxRow platform}
  {refuse : Option (OutboxRow platform) → PyError}

theorem Agrees.updateRow_none (h : Agrees H writes s t)
    (hf : s.find? principal messageId = none) :
    PostgresOutbox.updateRow principal messageId more assign refuse t =
      (.error (refuse none), t) := by
  unfold PostgresOutbox.updateRow
  rw [Op.get_bind]
  simp only [h.find?_row_and, h.find?_row, hf, Option.map_none, Option.filter_none, Op.raise_apply]

theorem Agrees.updateRow_skip (h : Agrees H writes s t) {e : Key × OutboxMessage platform}
    (hf : s.find? principal messageId = some e) (hmore : more (rowOf writes e) = false) :
    PostgresOutbox.updateRow principal messageId more assign refuse t =
      (.error (refuse (some (rowOf writes e))), t) := by
  unfold PostgresOutbox.updateRow
  rw [Op.get_bind]
  simp only [h.find?_row_and, h.find?_row, hf, Option.map_some, Option.filter_some, hmore,
    Bool.false_eq_true, if_false, Op.raise_apply]

variable {k : Key} {m m' : OutboxMessage platform}

/-- A statement whose new row violates the state metadata aborts. -/
theorem Agrees.updateRow_refused (h : Agrees H writes s t)
    (hf : s.find? principal messageId = some (k, m)) (hmore : more (rowOf writes (k, m)) = true)
    (hassign : assign (rowOf writes (k, m)) = rowOf writes (k, m')) (hle : m'.attempts ≤ maxInteger)
    (hleg : m'.Legible) (hmeta : ¬ m'.StateMetadata) :
    PostgresOutbox.updateRow principal messageId more assign refuse t =
      (.error (.integrityError "assistant_outbox"), t) := by
  have hcheck : (rowOf writes (k, m')).check = false := by
    rw [← Bool.not_eq_true]
    exact fun hc => hmeta ((OutboxMessage.check_ofMessage hleg _).mp hc)
  have hatt : (rowOf writes (k, m')).attempts ≤ maxInteger := hle
  unfold PostgresOutbox.updateRow
  rw [Op.get_bind]
  simp only [h.find?_row_and, hf, Option.map_some, Option.filter_some, hmore, if_true, hassign, hcheck]
  simp [require, hatt]

/-- A statement that finds its row stores and returns the updated message. -/
theorem Agrees.updateRow_ok (h : Agrees H writes s t)
    (hf : s.find? principal messageId = some (k, m)) (hmore : more (rowOf writes (k, m)) = true)
    (hassign : assign (rowOf writes (k, m)) = rowOf writes (k, m')) (hkeeps : Keeps k m m') :
    ∃ t', PostgresOutbox.updateRow principal messageId more assign refuse t = (.ok m', t') ∧
      Agrees H writes (s.setMessage k m') t' := by
  have hcheck : (rowOf writes (k, m')).check = true :=
    (OutboxMessage.check_ofMessage hkeeps.sound.metadata.legible _).mpr hkeeps.sound.metadata
  have hatt : (rowOf writes (k, m')).attempts ≤ maxInteger := hkeeps.attempts
  have hval : (rowOf writes (k, m')).payload.modelValidate = .ok m' := hkeeps.modelValidate
  obtain ⟨hm, htenant, hid⟩ := find?_eq_some hf
  have hmem : (k, m) ∈ s.messagesByKey.entries := Dict.mem_entries.mpr hm
  refine ⟨_, ?_, h.update [(k, m)] (fun _ => m') (fun r => (r.tenantId = principal.tenantId &&
    r.messageId = messageId) && more r) assign (by simpa using hmem) (by simp) (by simpa using hkeeps)
    ?_ (by simpa using hassign)⟩
  · unfold PostgresOutbox.updateRow
    rw [Op.get_bind]
    simp only [h.find?_row_and, hf, Option.map_some, Option.filter_some, hmore, if_true, hassign,
      hcheck, hval]
    simp [require, hatt]
  · intro e he
    simp only [Bool.and_eq_true, decide_eq_true_eq, h.found_rowOf he, List.mem_singleton]
    constructor
    · rintro ⟨⟨h₁, h₂⟩, -⟩
      exact h.eq_of_id he hmem (h₁.trans htenant.symm) (h₂.trans hid.symm)
    · rintro rfl
      exact ⟨⟨htenant, hid⟩, hmore⟩

/-- An update of a message in the expected state whose row is the assigned one. -/
structure Assigns (expected : DeliveryStatus)
    (updates : OutboxMessage platform → OutboxMessage platform)
    (assign : OutboxRow platform → OutboxRow platform) : Prop extends Follows expected updates where
  assign_ofMessage : ∀ fp m, m.StateMetadata → m.dispatchStatus = expected →
    assign (.ofMessage fp m) = .ofMessage fp (updates m)
  not_claimed : ∀ m, (updates m).dispatchStatus ≠ .claimed

variable {expected : DeliveryStatus} {updates : OutboxMessage platform → OutboxMessage platform}

theorem Assigns.legible (ha : Assigns expected updates assign) (hm : m.Legible) :
    (updates m).Legible := by
  refine ⟨fun x hx => ?_, fun x hx => ?_⟩
  · rcases ha.claimToken m with h | h
    · simp [h] at hx
    · exact hm.claimToken x (h ▸ hx)
  · rcases ha.claimOwner m with h | h
    · simp [h] at hx
    · exact hm.claimOwner x (h ▸ hx)

theorem Assigns.normal (ha : Assigns expected updates assign) (hs : Sound k m)
    (hst : m.dispatchStatus = expected) : (updates m).Normal := by
  have hmove := ha.move m hst
  refine ⟨hmove.id ▸ hs.normal.id, hmove.tenantId ▸ hs.normal.tenantId,
    hmove.idempotencyKey ▸ hs.normal.idempotencyKey, ?_, ?_, hmove.tenantId ▸ hs.normal.tenantId_ne,
    hmove.idempotencyKey ▸ hs.normal.idempotencyKey_ne⟩
  · rcases ha.claimToken m with h | h <;> rw [h]
    · simp
    · exact hs.normal.claimToken
  · rcases ha.claimOwner m with h | h <;> rw [h]
    · simp
    · exact hs.normal.claimOwner

/-- An update without its state metadata fails validation. -/
theorem Assigns.modelValidate_error (ha : Assigns expected updates assign) (hs : Sound k m)
    (hst : m.dispatchStatus = expected) (hmeta : ¬ (updates m).StateMetadata) :
    ∃ e, (updates m).modelValidate = .error e ∧ e.code? = none := by
  rw [(ha.normal hs hst).modelValidate]
  cases hr : (updates m).requireStateMetadata with
  | ok _ => exact absurd hr hmeta
  | error e => exact ⟨e, rfl, OutboxMessage.requireStateMetadata_error hr⟩

theorem Assigns.keeps (ha : Assigns expected updates assign) (hs : Sound k m)
    (hst : m.dispatchStatus = expected) (hmeta : (updates m).StateMetadata)
    (hle : (updates m).attempts ≤ maxInteger) :
    (updates m).modelValidate = .ok (updates m) ∧ Keeps k m (updates m) := by
  have hmove := ha.move m hst
  have hkeeps : Keeps k m (updates m) :=
    ⟨⟨ha.normal hs hst, hmeta, hmove.tenantId.trans hs.tenant⟩, hmove.id, hmove.event,
      hmove.idempotencyKey, fun hc => absurd hc (ha.not_claimed m), hle⟩
  exact ⟨hkeeps.modelValidate, hkeeps⟩

/-- `_transition` and the conditional `UPDATE` agree. -/
theorem Agrees.transition (h : Agrees H writes s t) (ha : Assigns expected updates assign)
    {claimToken : String} (htr : principal.trusted = true) (htok : strip claimToken ≠ "")
    (hbind : PostgresOutbox.bindTexts [principal.tenantId, messageId, claimToken] = .ok ())
    (hle : ∀ k m, s.find? principal messageId = some (k, m) → (updates m).attempts ≤ maxInteger) :
    Matches Eq (∃ k m, s.find? principal messageId = some (k, m) ∧ m.claimToken = some claimToken ∧
        m.dispatchStatus = expected ∧ ¬ (updates m).StateMetadata) H s t
      (InMemoryOutbox.transition principal messageId claimToken expected updates s)
      (PostgresOutbox.transitionDeliveryRow principal messageId claimToken expected assign t) := by
  have hne : claimToken ≠ "" := by rintro rfl; exact htok rfl
  have htrust := requireTrustedPrincipal_of_trusted htr
  unfold InMemoryOutbox.transition PostgresOutbox.transitionDeliveryRow
  simp only [htrust, hbind, Op.ofExcept_ok_bind, hne, ne_eq,
    not_false_eq_true, decide_true, require_true, Op.get_bind]
  cases hf : s.find? principal messageId with
  | none =>
    rw [h.updateRow_none hf]
    exact .raised .notFound rfl rfl
  | some e =>
    obtain ⟨k, m⟩ := e
    have hs := h.sound k m (find?_eq_some hf).1
    have hmore : PostgresOutbox.heldIn expected claimToken (rowOf writes (k, m)) =
        (decide (m.dispatchStatus = expected) && decide (m.claimToken = some claimToken)) := rfl
    by_cases htoken : m.claimToken = some claimToken
    · by_cases hst : m.dispatchStatus = expected
      · have hassign := ha.assign_ofMessage (platform.fingerprint (writes k).postgresDocument) m
          hs.metadata hst
        simp only [htoken, hst, decide_true, Bool.and_true] at hmore
        simp only [htoken, hst, decide_true, require_true, Op.ofExcept_ok_bind]
        by_cases hmeta : (updates m).StateMetadata
        · obtain ⟨hv, hkeeps⟩ := ha.keeps hs hst hmeta (hle k m hf)
          obtain ⟨t', ht', hagree⟩ := h.updateRow_ok hf hmore hassign hkeeps
          rw [ht', hv]
          exact .returned writes rfl hagree
        · rw [h.updateRow_refused hf hmore hassign (hle k m hf) (ha.legible hs.metadata.legible) hmeta]
          obtain ⟨e, he, hcode⟩ := ha.modelValidate_error hs hst hmeta
          rw [he]
          exact .refused ⟨k, m, rfl, htoken, hst, hmeta⟩ hcode rfl
      · simp only [hst, decide_false, Bool.false_and] at hmore
        rw [h.updateRow_skip hf hmore]
        simp only [htoken, hst, decide_true, decide_false, require_true, require_false,
          Op.ofExcept_ok_bind]
        have hrow : (rowOf writes (k, m)).claimToken = some claimToken := htoken
        simp only [hrow, not_true_eq_false, if_false]
        exact .raised .conflict rfl rfl
    · simp only [htoken, decide_false, Bool.and_false] at hmore
      rw [h.updateRow_skip hf hmore]
      have hrow : (rowOf writes (k, m)).claimToken ≠ some claimToken := htoken
      simp only [htoken, decide_false, require_false, hrow, not_false_eq_true, if_true]
      exact .raised .permissionDenied rfl rfl

/-- `_operator_transition` and `_resolve_uncertain` agree. -/
theorem Agrees.operatorTransition (h : Agrees H writes s t) (ha : Assigns .uncertain updates assign)
    (htr : principal.trusted = true)
    (hbind : PostgresOutbox.bindTexts [principal.tenantId, messageId] = .ok ())
    (hmeta : ∀ m, m.StateMetadata → m.dispatchStatus = .uncertain → (updates m).StateMetadata) :
    Matches Eq False H s t (InMemoryOutbox.operatorTransition principal messageId updates s)
      (PostgresOutbox.resolveUncertain principal messageId assign t) := by
  have htrust := requireTrustedPrincipal_of_trusted htr
  unfold InMemoryOutbox.operatorTransition PostgresOutbox.resolveUncertain
  simp only [htrust, hbind, Op.ofExcept_ok_bind, Op.get_bind]
  cases hf : s.find? principal messageId with
  | none =>
    rw [h.updateRow_none hf]
    exact .raised .notFound rfl rfl
  | some e =>
    obtain ⟨k, m⟩ := e
    have hget := (find?_eq_some hf).1
    have hs := h.sound k m hget
    have hmore : PostgresOutbox.isUncertain (rowOf writes (k, m)) =
        decide (m.dispatchStatus = .uncertain) := rfl
    by_cases hst : m.dispatchStatus = .uncertain
    · have hassign := ha.assign_ofMessage (platform.fingerprint (writes k).postgresDocument) m
        hs.metadata hst
      have hle : (updates m).attempts ≤ maxInteger := by
        have hatt := (ha.move m hst).attempts
        rw [hst] at hatt
        simpa [hatt] using h.attempts k m hget
      obtain ⟨hv, hkeeps⟩ := ha.keeps hs hst (hmeta m hs.metadata hst) hle
      obtain ⟨t', ht', hagree⟩ := h.updateRow_ok hf (hmore.trans (by simp [hst])) hassign
        hkeeps
      simp only [hst, decide_true, require_true, Op.ofExcept_ok_bind]
      rw [ht', hv]
      exact .returned writes rfl hagree
    · rw [h.updateRow_skip hf (hmore.trans (by simp [hst]))]
      simp only [hst, decide_false, require_false]
      exact .raised .conflict rfl rfl

end Row

/-! ## Batches -/

section Batch

variable {due : Key → OutboxMessage platform → Bool}
  {update : Key → OutboxMessage platform → Except PyError (OutboxMessage platform)} {limit : Int}
  {u : Key × OutboxMessage platform → OutboxMessage platform}

/-- When every update of a due message succeeds, the loop updates the first `limit` due candidates. -/
theorem InMemoryOutbox.forEachDue_eq {cs : List (Key × OutboxMessage platform)}
    (hup : ∀ e ∈ cs, due e.1 e.2 = true → update e.1 e.2 = .ok (u e))
    {acc : List (OutboxMessage platform)} {n : Nat} (hn : limit = acc.length + (n + 1))
    (s : InMemoryOutbox platform) :
    forEachDue due update limit cs acc s =
      (.ok (acc ++ ((cs.filter fun e => due e.1 e.2).take (n + 1)).map u),
        s.setMessages (((cs.filter fun e => due e.1 e.2).take (n + 1)).map fun e => (e.1, u e))) := by
  induction cs generalizing acc n s with
  | nil => simp [forEachDue, setMessages]
  | cons c cs ih =>
    obtain ⟨k, m⟩ := c
    have hup' := fun e he => hup e (List.mem_cons_of_mem _ he)
    unfold forEachDue
    by_cases hd : due k m = true
    · have hfilter : ((k, m) :: cs).filter (fun e => due e.1 e.2) =
          (k, m) :: cs.filter fun e => due e.1 e.2 := List.filter_cons_of_pos hd
      rw [if_pos hd, hup (k, m) (by simp) hd, Op.ofExcept_ok_bind, Op.modify_bind, hfilter,
        List.take_succ_cons]
      cases n with
      | zero => rw [if_pos (by simp [hn])]; simp [setMessages]
      | succ n =>
        have hlen : ((acc ++ [u (k, m)]).length : Int) = acc.length + 1 := by simp
        rw [if_neg (by rw [hlen]; omega), ih hup' (n := n) (by rw [hlen]; omega)]
        simp [setMessages]
    · have hfilter : ((k, m) :: cs).filter (fun e => due e.1 e.2) =
          cs.filter fun e => due e.1 e.2 := List.filter_cons_of_neg hd
      rw [if_neg hd, ih hup' hn, hfilter]

/-- The messages of a batch: the first due ones in the order of the loop. -/
def InMemoryOutbox.selection (s : InMemoryOutbox platform) (due : Key → OutboxMessage platform → Bool)
    (n : Nat) : List (Key × OutboxMessage platform) :=
  ((s.messagesByKey.entries.filter fun e => due e.1 e.2).insertionSort visitedBefore).take n

theorem InMemoryOutbox.mem_selection {n : Nat} {e : Key × OutboxMessage platform}
    (he : e ∈ s.selection due n) : e ∈ s.messagesByKey.entries ∧ due e.1 e.2 = true := by
  have he := (List.mem_insertionSort visitedBefore).mp (List.mem_of_mem_take he)
  simpa using List.mem_filter.mp he

theorem InMemoryOutbox.nodup_selection (s : InMemoryOutbox platform) (n : Nat) :
    ((s.selection due n).map Prod.fst).Nodup := by
  have hfilter : ((s.messagesByKey.entries.filter fun e => due e.1 e.2).map Prod.fst).Nodup :=
    s.messagesByKey.nodup.sublist (List.filter_sublist.map _)
  have hperm := (List.perm_insertionSort visitedBefore
    (s.messagesByKey.entries.filter fun e => due e.1 e.2)).map Prod.fst
  exact (hperm.nodup_iff.mpr hfilter).sublist ((List.take_sublist _ _).map _)

theorem InMemoryOutbox.forEachDue_candidates {n : Nat} (hn : limit = n + 1)
    (hup : ∀ e ∈ s.messagesByKey.entries, due e.1 e.2 = true → update e.1 e.2 = .ok (u e)) :
    forEachDue due update limit s.candidates [] s =
      (.ok ((s.selection due (n + 1)).map u),
        s.setMessages ((s.selection due (n + 1)).map fun e => (e.1, u e))) := by
  have hcand : (s.candidates.filter fun e => due e.1 e.2).take (n + 1) = s.selection due (n + 1) := by
    rw [selection, candidates, filter_insertionSort]
  have hup' : ∀ e ∈ s.candidates, due e.1 e.2 = true → update e.1 e.2 = .ok (u e) :=
    fun e he => hup e ((List.mem_insertionSort visitedBefore).mp he)
  rw [forEachDue_eq hup' (show limit = ([] : List (OutboxMessage platform)).length + (n + 1) by
    simpa using hn), hcand, List.nil_append]

variable {selected : OutboxRow platform → Bool} {assign : OutboxRow platform → OutboxRow platform}

/-- `ORDER BY … LIMIT` selects the rows of the batch. -/
theorem Agrees.selected_rows (h : Agrees H writes s t) (n : Nat)
    (hdue : ∀ e ∈ s.messagesByKey.entries, selected (rowOf writes e) = due e.1 e.2) :
    ((t.filter selected).insertionSort PostgresOutbox.orderedBefore).take n =
      (s.selection due n).map (rowOf writes) := by
  have hfilter : s.messagesByKey.entries.filter (selected ∘ rowOf writes) =
      s.messagesByKey.entries.filter fun e => due e.1 e.2 :=
    List.filter_congr fun e he => hdue e he
  have hsort := List.map_insertionSort visitedBefore PostgresOutbox.orderedBefore (rowOf writes)
    (s.messagesByKey.entries.filter fun e => due e.1 e.2) fun a _ b _ => Iff.rfl
  rw [h.rows, List.filter_map, hfilter, selection, List.map_take, hsort]

/-- `sameKey` finds exactly the rows of the batch. -/
theorem Agrees.any_sameKey (h : Agrees H writes s t) {n : Nat} {e : Key × OutboxMessage platform}
    (he : e ∈ s.messagesByKey.entries) :
    ((s.selection due n).map (rowOf writes)).any (PostgresOutbox.sameKey (rowOf writes e)) = true ↔
      e ∈ s.selection due n := by
  simp only [List.any_map, List.any_eq_true, Function.comp_apply]
  constructor
  · rintro ⟨d, hd, hkey⟩
    have hde := (mem_selection hd).1
    simp only [PostgresOutbox.sameKey, Bool.and_eq_true, decide_eq_true_eq, h.found_rowOf he,
      h.found_rowOf hde] at hkey
    have hek := h.key e.1 e.2 (Dict.mem_entries.mp he)
    have hdk := h.key d.1 d.2 (Dict.mem_entries.mp hde)
    have hkeys : e.1 = d.1 := Prod.ext hkey.1 (hek.symm.trans (hkey.2.trans hdk))
    have hval := Dict.mem_entries.mp hde
    rw [← hkeys, Dict.mem_entries.mp he] at hval
    exact (Prod.ext hkeys (Option.some.inj hval) : e = d) ▸ hd
  · exact fun hs => ⟨e, hs, by simp [PostgresOutbox.sameKey]⟩

/-- A batch and the statement that updates its selected rows agree, up to the order of the result. -/
theorem Agrees.batch (h : Agrees H writes s t) (hlimit : 1 ≤ limit)
    (hdue : ∀ e ∈ s.messagesByKey.entries, selected (rowOf writes e) = due e.1 e.2)
    (hup : ∀ e ∈ s.messagesByKey.entries, due e.1 e.2 = true → update e.1 e.2 = .ok (u e))
    (hkeeps : ∀ e ∈ s.messagesByKey.entries, due e.1 e.2 = true → Keeps e.1 e.2 (u e))
    (hassign : ∀ e ∈ s.messagesByKey.entries, due e.1 e.2 = true →
      assign (rowOf writes e) = rowOf writes (e.1, u e)) :
    Matches List.Perm False H s t (forEachDue due update limit s.candidates [] s)
      (PostgresOutbox.updateSelected selected limit assign t) := by
  obtain ⟨n, hn⟩ : ∃ n : Nat, limit = n + 1 := ⟨(limit - 1).toNat, by omega⟩
  have hlim : limit.toNat = n + 1 := by omega
  obtain ⟨chosen, hdef⟩ : ∃ chosen, chosen = fun r : OutboxRow platform =>
    ((s.selection due (n + 1)).map (rowOf writes)).any (PostgresOutbox.sameKey r) := ⟨_, rfl⟩
  have hchosen : ∀ e ∈ s.messagesByKey.entries,
      chosen (rowOf writes e) = true ↔ e ∈ s.selection due (n + 1) := by
    intro e he; rw [hdef]; exact h.any_sameKey he
  have hkept : ∀ e ∈ s.selection due (n + 1), Keeps e.1 e.2 (u e) :=
    fun e he => hkeeps e (mem_selection he).1 (mem_selection he).2
  have hassigned : ∀ e ∈ s.selection due (n + 1), assign (rowOf writes e) = rowOf writes (e.1, u e) :=
    fun e he => hassign e (mem_selection he).1 (mem_selection he).2
  -- the updated rows, in table order
  obtain ⟨rest, hrest⟩ : ∃ rest, rest = s.messagesByKey.entries.filter (chosen ∘ rowOf writes) := ⟨_, rfl⟩
  have hmem : ∀ e, e ∈ rest ↔ e ∈ s.selection due (n + 1) := by
    intro e
    rw [hrest, List.mem_filter]
    constructor
    · rintro ⟨he, hc⟩; exact (hchosen e he).mp hc
    · intro he; exact ⟨(mem_selection he).1, (hchosen e (mem_selection he).1).mpr he⟩
  have hupdated : (t.filter chosen).map assign = rest.map fun e => rowOf writes (e.1, u e) := by
    rw [h.rows, List.filter_map, List.map_map, ← hrest]
    exact List.map_congr_left fun e he => hassigned e ((hmem e).mp he)
  have hcheck : (rest.map fun e => rowOf writes (e.1, u e)).all OutboxRow.check = true := by
    simp only [List.all_map, List.all_eq_true, Function.comp_apply]
    intro e he
    have hk := hkept e ((hmem e).mp he)
    exact (OutboxMessage.check_ofMessage hk.sound.metadata.legible _).mpr hk.sound.metadata
  have hvalid : (rest.map fun e => rowOf writes (e.1, u e)).mapM (fun r => r.payload.modelValidate) =
      .ok (rest.map u) := by
    rw [mapM_eq_ok (g := OutboxRow.payload), List.map_map]
    · rfl
    · intro r hr
      obtain ⟨e, he, rfl⟩ := List.mem_map.mp hr
      exact (hkept e ((hmem e).mp he)).modelValidate
  have hperm : ((s.selection due (n + 1)).map u).Perm (rest.map u) := by
    refine List.Perm.map u ((List.perm_ext_iff_of_nodup ?_ ?_).mpr fun e => (hmem e).symm)
    · exact .of_map _ (nodup_selection s _)
    · rw [hrest]; exact (List.Nodup.of_map _ s.messagesByKey.nodup).filter _
  have hagree := h.update (s.selection due (n + 1)) u chosen assign
    (fun e he => (mem_selection he).1) (nodup_selection s _) hkept hchosen hassigned
  rw [forEachDue_candidates hn hup]
  have hstatement : PostgresOutbox.updateSelected selected limit assign t =
      (.ok (rest.map u), t.map fun r => if chosen r then assign r else r) := by
    unfold PostgresOutbox.updateSelected
    simp only [Op.get_bind, hlim, h.selected_rows (n + 1) hdue]
    rw [hdef] at hupdated
    simp only [hupdated, hcheck, hvalid, require_true, Op.ofExcept_ok_bind, Op.modify_bind,
      Op.pure_apply, hdef]
  rw [hstatement]
  exact .returned writes hperm hagree

end Batch

end PersonalAssistant
