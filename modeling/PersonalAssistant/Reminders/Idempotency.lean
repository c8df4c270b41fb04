import PersonalAssistant.Dto.Events

/-!
# Reminder idempotency

The identity of a source event, the key and the effect identifiers derived from it, and the fingerprint
of its payload. Everything is a SHA-256 digest of a canonical JSON document, so two identities with the
same key are equal as long as the hash does not collide on the documents that were hashed.
-/
namespace PersonalAssistant

open Lib

variable {platform : Platform}

/-- `_canonical_json`. -/
def canonicalJson (value : Json) : String := Json.dumps Json.escapeControl value

theorem canonicalJson_injective : Function.Injective canonicalJson :=
  Json.dumps_injective Json.prefixCode_escapeControl

def REMINDER_IDEMPOTENCY_VERSION : Json := .num ⟨"2", by decide, by simp⟩
def REMINDER_IDEMPOTENCY_KEY_PREFIX : String := "reminder:v2:"

/-- `_normalize_text`; inside a model its `ValueError` is a validation error. -/
def normalizeText (platform : Platform) (value : String) : Except PyError String :=
  if platform.nfc (strip value) = "" then
    .error (.validationError "idempotency value cannot be blank")
  else .ok (platform.nfc (strip value))

structure ReminderIdempotencyIdentity where
  tenantId : String
  channel : String
  principalId : String
  conversationId : String
  sourceEventId : String
deriving DecidableEq

/-- The durable effects of one identity. -/
inductive EffectKind where
  | calendarEvent
  | reminder
  | reminderCreated
  | notificationRequested
  | outboxMessage
deriving DecidableEq, Repr

namespace EffectKind

/-- The namespace hashed into the identifier. -/
def hashNamespace : EffectKind → String
  | calendarEvent => "calendar.event"
  | reminder => "scheduler.reminder"
  | reminderCreated => "event.reminder.created"
  | notificationRequested => "event.notification.requested"
  | outboxMessage => "outbox.message"

def idPrefix : EffectKind → String
  | calendarEvent => "cal_v2_"
  | reminder => "rem_v2_"
  | reminderCreated => "evt_reminder_created_v2_"
  | notificationRequested => "evt_notification_requested_v2_"
  | outboxMessage => "out_v2_"

def all : List EffectKind :=
  [calendarEvent, reminder, reminderCreated, notificationRequested, outboxMessage]

theorem mem_all (kind : EffectKind) : kind ∈ all := by cases kind <;> decide

theorem hashNamespace_injective : Function.Injective hashNamespace := by
  intro a b h
  cases a <;> cases b <;> first | rfl | exact absurd h (by decide)

end EffectKind

namespace ReminderIdempotencyIdentity

/-- The model's validators, then its trimming. -/
def create (platform : Platform) (tenantId channel principalId conversationId sourceEventId : String) :
    Except PyError ReminderIdempotencyIdentity := do
  let tenantId ← normalizeText platform tenantId
  let channel ← normalizeText platform channel
  let principalId ← normalizeText platform principalId
  let conversationId ← normalizeText platform conversationId
  let sourceEventId ← normalizeText platform sourceEventId
  return {
    tenantId := trim tenantId
    channel := trim (platform.casefold channel)
    principalId := trim principalId
    conversationId := trim conversationId
    sourceEventId := trim sourceEventId }

def canonicalDocument (d : ReminderIdempotencyIdentity) : Json :=
  .obj [("channel", .str d.channel), ("conversation_id", .str d.conversationId),
    ("principal_id", .str d.principalId),
    ("schema", .str "personal-assistant.reminder-idempotency-identity"),
    ("source_event_id", .str d.sourceEventId), ("tenant_id", .str d.tenantId),
    ("version", REMINDER_IDEMPOTENCY_VERSION)]

theorem canonicalDocument_injective : Function.Injective canonicalDocument := by
  rintro ⟨a₁, a₂, a₃, a₄, a₅⟩ ⟨b₁, b₂, b₃, b₄, b₅⟩ h
  simp_all [canonicalDocument]

def idempotencyKey (platform : Platform) (d : ReminderIdempotencyIdentity) : String :=
  REMINDER_IDEMPOTENCY_KEY_PREFIX ++ (platform.sha256 (canonicalJson d.canonicalDocument)).text

/-- The document hashed for one effect. -/
def effectDocument (d : ReminderIdempotencyIdentity) (kind : EffectKind) : Json :=
  .obj [("identity", d.canonicalDocument), ("namespace", .str kind.hashNamespace),
    ("schema", .str "personal-assistant.reminder-effect-id"),
    ("version", REMINDER_IDEMPOTENCY_VERSION)]

/-- `derive(namespace, prefix)`. -/
def effectId (platform : Platform) (d : ReminderIdempotencyIdentity) (kind : EffectKind) : String :=
  kind.idPrefix ++ (platform.sha256 (canonicalJson (d.effectDocument kind))).text

end ReminderIdempotencyIdentity

structure ReminderEffectIds where
  calendarEventId : String
  reminderId : String
  reminderCreatedEventId : String
  notificationRequestedEventId : String
  outboxMessageId : String
deriving DecidableEq

def ReminderEffectIds.fromIdentity (platform : Platform) (d : ReminderIdempotencyIdentity) :
    ReminderEffectIds where
  calendarEventId := d.effectId platform .calendarEvent
  reminderId := d.effectId platform .reminder
  reminderCreatedEventId := d.effectId platform .reminderCreated
  notificationRequestedEventId := d.effectId platform .notificationRequested
  outboxMessageId := d.effectId platform .outboxMessage

/-- The identifier of one effect. -/
def ReminderEffectIds.entry (ids : ReminderEffectIds) : EffectKind → String
  | .calendarEvent => ids.calendarEventId
  | .reminder => ids.reminderId
  | .reminderCreated => ids.reminderCreatedEventId
  | .notificationRequested => ids.notificationRequestedEventId
  | .outboxMessage => ids.outboxMessageId

theorem ReminderEffectIds.entry_fromIdentity (d : ReminderIdempotencyIdentity) (kind : EffectKind) :
    (fromIdentity platform d).entry kind = d.effectId platform kind := by
  cases kind <;> rfl

structure ReminderPayload where
  text : String
  recipient : String
  timezone : String
deriving DecidableEq

namespace ReminderPayload

def create (platform : Platform) (text recipient timezone : String) :
    Except PyError ReminderPayload := do
  let text ← normalizeText platform text
  let recipient ← normalizeText platform recipient
  let timezone ← normalizeText platform timezone
  return { text := trim text, recipient := trim recipient, timezone := trim timezone }

def canonicalDocument (p : ReminderPayload) : Json :=
  .obj [("recipient", .str p.recipient),
    ("schema", .str "personal-assistant.reminder-idempotency-payload"), ("text", .str p.text),
    ("timezone", .str p.timezone), ("version", REMINDER_IDEMPOTENCY_VERSION)]

def fingerprint (platform : Platform) (p : ReminderPayload) : String :=
  (platform.sha256 (canonicalJson p.canonicalDocument)).text

theorem canonicalDocument_injective : Function.Injective canonicalDocument := by
  rintro ⟨a₁, a₂, a₃⟩ ⟨b₁, b₂, b₃⟩ h
  simp_all [canonicalDocument]

end ReminderPayload

/-- The identity of the source event and its payload. -/
structure ReminderIdempotency where
  identity : ReminderIdempotencyIdentity
  payload : ReminderPayload

namespace ReminderIdempotency

def key (platform : Platform) (r : ReminderIdempotency) : String := r.identity.idempotencyKey platform

def payloadFingerprint (platform : Platform) (r : ReminderIdempotency) : String :=
  r.payload.fingerprint platform

def effectIds (platform : Platform) (r : ReminderIdempotency) : ReminderEffectIds :=
  .fromIdentity platform r.identity

end ReminderIdempotency

/-! ## Collision-free identities -/

namespace ReminderIdempotencyIdentity

variable {d d' : ReminderIdempotencyIdentity}

/-- The texts hashed for one identity: its own document and one per effect. -/
def hashedTexts (d : ReminderIdempotencyIdentity) : List String :=
  canonicalJson d.canonicalDocument :: EffectKind.all.map fun kind =>
    canonicalJson (d.effectDocument kind)

/-- The hash does not collide on the texts hashed for the identities of `D`. -/
def CollisionFree (platform : Platform) (D : Set ReminderIdempotencyIdentity) : Prop :=
  Set.InjOn platform.sha256 {t | ∃ d ∈ D, t ∈ d.hashedTexts}

variable {D : Set ReminderIdempotencyIdentity}

theorem eq_of_idempotencyKey (hD : CollisionFree platform D) (hd : d ∈ D) (hd' : d' ∈ D)
    (h : d.idempotencyKey platform = d'.idempotencyKey platform) : d = d' := by
  have htext := Digest.text_injective.eq_iff.mp ((String.append_right_inj _).mp h)
  have hjson := hD ⟨d, hd, by simp [hashedTexts]⟩ ⟨d', hd', by simp [hashedTexts]⟩ htext
  exact canonicalDocument_injective (canonicalJson_injective hjson)

theorem eq_of_effectId (hD : CollisionFree platform D) (hd : d ∈ D) (hd' : d' ∈ D)
    {kind : EffectKind} (h : d.effectId platform kind = d'.effectId platform kind) : d = d' := by
  have htext := Digest.text_injective.eq_iff.mp ((String.append_right_inj _).mp h)
  have hmem : ∀ e : ReminderIdempotencyIdentity,
      canonicalJson (e.effectDocument kind) ∈ e.hashedTexts := fun e =>
    List.mem_cons_of_mem _ (List.mem_map.mpr ⟨kind, kind.mem_all, rfl⟩)
  have hjson := canonicalJson_injective (hD ⟨d, hd, hmem d⟩ ⟨d', hd', hmem d'⟩ htext)
  simp only [effectDocument, Json.obj.injEq, List.cons.injEq, Prod.mk.injEq, true_and] at hjson
  exact canonicalDocument_injective hjson.1

theorem length_digest (d : Digest) : d.text.toList.length = 64 := by
  have h := d.hex
  simp only [isHexText, Bool.and_eq_true, beq_iff_eq] at h
  exact h.2

/-- Readable part and digest of an identifier are determined by it. -/
theorem append_digest_inj {a b : String} {x y : Digest} (h : a ++ x.text = b ++ y.text) :
    a = b ∧ x = y := by
  have hlist := congrArg String.toList h
  simp only [String.toList_append] at hlist
  obtain ⟨ha, hx⟩ := List.append_inj' hlist (by rw [length_digest, length_digest])
  exact ⟨String.toList_injective ha, Digest.text_injective (String.toList_injective hx)⟩

theorem effectId_inj (hD : CollisionFree platform D) (hd : d ∈ D) (hd' : d' ∈ D)
    {kind kind' : EffectKind} :
    d.effectId platform kind = d'.effectId platform kind' ↔ kind = kind' ∧ d = d' := by
  constructor
  · intro h
    have hprefix := (append_digest_inj h).1
    have hkind : kind = kind' := by
      cases kind <;> cases kind' <;> first | rfl | exact absurd hprefix (by decide)
    subst hkind
    exact ⟨rfl, eq_of_effectId hD hd hd' h⟩
  · rintro ⟨rfl, rfl⟩
    rfl

/-! ## Derived texts have no blanks -/

theorem not_isSpace_append {a b : String} (ha : ∀ c ∈ a.toList, isSpace c = false)
    (hb : ∀ c ∈ b.toList, isSpace c = false) : ∀ c ∈ (a ++ b).toList, isSpace c = false := by
  intro c hc
  rw [String.toList_append, List.mem_append] at hc
  exact hc.elim (ha c) (hb c)

theorem idempotencyKey_not_isSpace (d : ReminderIdempotencyIdentity) :
    ∀ c ∈ (d.idempotencyKey platform).toList, isSpace c = false :=
  not_isSpace_append (forall_not_isSpace (by decide)) (Digest.not_isSpace _)

theorem trimmed_idempotencyKey_append (d : ReminderIdempotencyIdentity) {suffix : String}
    (h : ∀ c ∈ suffix.toList, isSpace c = false) :
    Trimmed (d.idempotencyKey platform ++ suffix) :=
  trimmed_append_of_not_isSpace d.idempotencyKey_not_isSpace h

theorem trimmed_idempotencyKey (d : ReminderIdempotencyIdentity) :
    Trimmed (d.idempotencyKey platform) :=
  trimmed_append_of_not_isSpace (forall_not_isSpace (by decide)) (Digest.not_isSpace _)

theorem trimmed_effectId (d : ReminderIdempotencyIdentity) (kind : EffectKind) :
    Trimmed (d.effectId platform kind) :=
  trimmed_append_of_not_isSpace (forall_not_isSpace (by cases kind <;> decide)) (Digest.not_isSpace _)

theorem effectId_ne (d : ReminderIdempotencyIdentity) (kind : EffectKind) :
    d.effectId platform kind ≠ "" := by
  intro h
  have := congrArg String.toList h
  cases kind <;> simp [effectId, EffectKind.idPrefix] at this

end ReminderIdempotencyIdentity

/-! ## Documents of different kinds -/

inductive DocumentKind where
  | identity
  | effect
  | payload
deriving DecidableEq, Repr

/-- A document that is serialised and hashed. -/
inductive HashedDocument where
  | identity (d : ReminderIdempotencyIdentity)
  | effect (d : ReminderIdempotencyIdentity) (kind : EffectKind)
  | payload (p : ReminderPayload)

namespace HashedDocument

def kind : HashedDocument → DocumentKind
  | identity _ => .identity
  | effect _ _ => .effect
  | payload _ => .payload

def json : HashedDocument → Json
  | identity d => d.canonicalDocument
  | effect d kind => d.effectDocument kind
  | payload p => p.canonicalDocument

/-- The schema member alone tells the kinds apart. -/
theorem kind_eq_of_json {x y : HashedDocument} (h : x.json = y.json) : x.kind = y.kind := by
  cases x <;> cases y <;>
    simp_all [json, kind, ReminderIdempotencyIdentity.canonicalDocument,
      ReminderIdempotencyIdentity.effectDocument, ReminderPayload.canonicalDocument]

end HashedDocument

namespace ReminderPayload

/-- The hash does not collide on the payloads of `P`. -/
def CollisionFree (platform : Platform) (P : Set ReminderPayload) : Prop :=
  Set.InjOn platform.sha256 {t | ∃ p ∈ P, t = canonicalJson p.canonicalDocument}

theorem eq_of_fingerprint {P : Set ReminderPayload} (hP : CollisionFree platform P)
    {p p' : ReminderPayload} (hp : p ∈ P) (hp' : p' ∈ P)
    (h : p.fingerprint platform = p'.fingerprint platform) : p = p' := by
  have hjson := hP ⟨p, hp, rfl⟩ ⟨p', hp', rfl⟩ (Digest.text_injective h)
  exact canonicalDocument_injective (canonicalJson_injective hjson)

end ReminderPayload

open ReminderIdempotencyIdentity in
/-- Keys, effect identifiers and fingerprints are equal exactly when what they were derived from is,
and no document is taken for one of another kind. -/
theorem derived_identifiers_exact {D : Set ReminderIdempotencyIdentity} {P : Set ReminderPayload}
    (identities : CollisionFree platform D) (payloads : ReminderPayload.CollisionFree platform P) :
    (∀ d ∈ D, ∀ d' ∈ D, d.idempotencyKey platform = d'.idempotencyKey platform ↔
      d.tenantId = d'.tenantId ∧ d.channel = d'.channel ∧ d.principalId = d'.principalId ∧
        d.conversationId = d'.conversationId ∧ d.sourceEventId = d'.sourceEventId) ∧
    (∀ d ∈ D, ∀ d' ∈ D, ∀ kind kind',
      (ReminderEffectIds.fromIdentity platform d).entry kind =
        (ReminderEffectIds.fromIdentity platform d').entry kind' ↔
      kind.hashNamespace = kind'.hashNamespace ∧ d = d') ∧
    (∀ p ∈ P, ∀ p' ∈ P, p.fingerprint platform = p'.fingerprint platform ↔
      p.text = p'.text ∧ p.recipient = p'.recipient ∧ p.timezone = p'.timezone) ∧
    ∀ x y : HashedDocument, canonicalJson x.json = canonicalJson y.json → x.kind = y.kind := by
  refine ⟨fun d hd d' hd' => ⟨?_, ?_⟩, fun d hd d' hd' kind kind' => ?_,
    fun p hp p' hp' => ⟨?_, ?_⟩, fun x y h => ?_⟩
  · intro h
    obtain rfl := eq_of_idempotencyKey identities hd hd' h
    simp
  · rintro ⟨h₁, h₂, h₃, h₄, h₅⟩
    obtain rfl : d = d' := by
      cases d; cases d'; simp_all
    rfl
  · rw [ReminderEffectIds.entry_fromIdentity, ReminderEffectIds.entry_fromIdentity,
      effectId_inj identities hd hd', EffectKind.hashNamespace_injective.eq_iff]
  · intro h
    obtain rfl := ReminderPayload.eq_of_fingerprint payloads hp hp' h
    simp
  · rintro ⟨h₁, h₂, h₃⟩
    obtain rfl : p = p' := by
      cases p; cases p'; simp_all
    rfl
  · exact HashedDocument.kind_eq_of_json (canonicalJson_injective h)

/-! ## A sample with its digests -/

def ReminderIdempotencyIdentity.sample (sourceEventId : String) : ReminderIdempotencyIdentity where
  tenantId := "tenant-1"
  channel := "telegram"
  principalId := "user-1"
  conversationId := "chat-1"
  sourceEventId := sourceEventId

def ReminderPayload.sample (text : String) : ReminderPayload where
  text := text
  recipient := "chat-1"
  timezone := "UTC"

/-- Everything hashed for two identities and two payloads that differ in one letter's case. -/
def reminderTexts : List String :=
  (ReminderIdempotencyIdentity.sample "event-1").hashedTexts ++
    (ReminderIdempotencyIdentity.sample "event-2").hashedTexts ++
    [canonicalJson (ReminderPayload.sample "Call home").canonicalDocument,
      canonicalJson (ReminderPayload.sample "Call Home").canonicalDocument]

def reminderDigests : List Nat :=
  [0xea210734c674bf1d38c9b712f007e34bced7d420ce4420cb655afcc8e9ce6a1a,
    0xa3a2af952cff8b17aad9acd4ae59e1ef70e3900bf90a961fa109d86fbb18cb2c,
    0xca8b1c6f9b81f6d523106a4f6bf8979d080f557c0f3aa6e1e25ab222bcfa96c4,
    0xfc6e45c388416664df98c450706f301e4905a88f59b2a387995fca1fb490a196,
    0xd30d1134723e8ce5b684c4d71765ab6a2b9da62f6e5c243f0347350fbf904ef9,
    0x4ab9ddad60769a3691de785025bf454dec5609339d538a6c0055c85a4fca5726,
    0x6a168e8e4b8bc4592f51ac2715f538d52fbdbe28dad2a64ba4526bafe6524643,
    0x36be1e3931225f8236a673fdecb7a2ae8986a962479e558749bbf6bf59c4d641,
    0xe872211816b609e9da083a41d2f57d0355bee1db79443d7846b719bb4aab16d1,
    0xcd801ec27c5c10b99413cf3ade18e1ee94561208232c290b1622bb3a3dc758fa,
    0x78cadbee762ee03229e0a82724a8902ac6476d3e4c55ed2a417d3c82afa30f96,
    0x4dbaaa461b18c75da38601027b5d751629bf5166d8a1f3db37b00ddb7b7a1a5d,
    0x32e80655cc29862cfaff8f8cde5220c5708cf5fe618369950d2cc5ed4b9cc890,
    0xb3c6721dd4ddfd94458851f82bfccf2fa0a836679ff046220dd5a18a857bff24]

def reminderPlatform : Platform := .ofTable (reminderTexts.zip (reminderDigests.map .ofNat))

theorem injOn_reminderPlatform : Set.InjOn reminderPlatform.sha256 {t | t ∈ reminderTexts} :=
  Platform.injOn_ofNumbers (by rfl) (Digest.nodup_ofNat (by decide +kernel))

open ReminderIdempotencyIdentity in
theorem collisionFree_sample :
    CollisionFree reminderPlatform {sample "event-1", sample "event-2"} := by
  refine injOn_reminderPlatform.mono ?_
  rintro t ⟨d, rfl | rfl, ht⟩
  · simp [reminderTexts, ht]
  · simp [reminderTexts, ht]

theorem collisionFree_samplePayload : ReminderPayload.CollisionFree reminderPlatform
    {ReminderPayload.sample "Call home", ReminderPayload.sample "Call Home"} := by
  refine injOn_reminderPlatform.mono ?_
  rintro t ⟨p, rfl | rfl, rfl⟩
  · simp [reminderTexts]
  · simp [reminderTexts]

open ReminderIdempotencyIdentity in
theorem sample_identifiers_differ :
    (sample "event-1").idempotencyKey reminderPlatform ≠
        (sample "event-2").idempotencyKey reminderPlatform ∧
      (ReminderPayload.sample "Call home").fingerprint reminderPlatform ≠
        (ReminderPayload.sample "Call Home").fingerprint reminderPlatform := by
  obtain ⟨keys, -, fingerprints, -⟩ :=
    derived_identifiers_exact collisionFree_sample collisionFree_samplePayload
  constructor
  · rw [Ne, keys _ (.inl rfl) _ (.inr rfl)]
    decide
  · rw [Ne, fingerprints _ (.inl rfl) _ (.inr rfl)]
    decide

end PersonalAssistant
