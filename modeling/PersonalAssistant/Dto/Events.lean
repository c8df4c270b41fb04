import Mathlib.Data.String.Basic
import PersonalAssistant.Lib.Effect
import PersonalAssistant.Domain.Platform
import PersonalAssistant.Dto.Delivery

/-!
# Event envelopes and outbox messages

`CloudEventFields` are the values handed to the event model and `validate` is what the model does with
them: trim every text, check lengths, the fingerprint pattern and the zone. A `CloudEvent` is a
validated one, so validating its dump again returns it.

`OutboxMessage` is a plain record: the stores build some messages with `model_copy`, which validates
nothing. `requireStateMetadata` is the rule every stored message is meant to satisfy.
-/
namespace PersonalAssistant

open Lib

/-- Members of a `dict` with string keys, kept in key order. -/
abbrev Members := List (String × Json)

/-- `members[key] = value`. -/
def insertMember (key : String) (value : Json) : Members → Members
  | [] => [(key, value)]
  | (k, v) :: rest =>
    if key < k then (key, value) :: (k, v) :: rest
    else if key = k then (key, value) :: rest
    else (k, v) :: insertMember key value rest

/-- Field values of an event before validation. -/
structure CloudEventFields where
  id : String
  specversion : String
  type : String
  source : String
  subject : Option String
  tenantId : String
  correlationId : String
  causationId : Option String
  sourceEventId : Option String
  payloadFingerprint : Option String
  timezone : Option String
  data : Members
  time : Instant

/-- A text field with `min_length=1`. -/
def requireNonempty (value : String) : Except PyError Unit :=
  if value = "" then .error (.validationError "String should have at least 1 character") else .ok ()

def optionally {α : Type} (check : α → Except PyError Unit) : Option α → Except PyError Unit
  | none => .ok ()
  | some a => check a

def requireFingerprint (value : String) : Except PyError Unit :=
  if isHexText 64 value then .ok () else .error (.validationError "String should match pattern")

def requireIanaTimezone (platform : Platform) (value : String) : Except PyError Unit :=
  if value = "" then .error (.validationError "String should have at least 1 character")
  else if platform.isZone value then .ok ()
  else .error (.validationError "timezone must be a valid IANA timezone")

namespace CloudEventFields

/-- `str_strip_whitespace`, applied to every text and to the keys of `data`. -/
def trimmed (f : CloudEventFields) : CloudEventFields where
  id := trim f.id
  specversion := trim f.specversion
  type := trim f.type
  source := trim f.source
  subject := f.subject.map trim
  tenantId := trim f.tenantId
  correlationId := trim f.correlationId
  causationId := f.causationId.map trim
  sourceEventId := f.sourceEventId.map trim
  payloadFingerprint := f.payloadFingerprint.map trim
  timezone := f.timezone.map trim
  data := f.data.foldl (fun acc e => insertMember (trim e.1) e.2 acc) []
  time := f.time

def check (platform : Platform) (f : CloudEventFields) : Except PyError Unit := do
  requireNonempty f.type
  requireNonempty f.source
  requireNonempty f.tenantId
  optionally requireNonempty f.sourceEventId
  optionally requireFingerprint f.payloadFingerprint
  optionally (requireIanaTimezone platform) f.timezone

/-- `CloudEvent.model_validate`. -/
def validate (platform : Platform) (f : CloudEventFields) : Except PyError CloudEventFields := do
  f.trimmed.check platform
  return f.trimmed

end CloudEventFields

/-- A validated event: its fields pass their own validation unchanged. -/
structure CloudEvent (platform : Platform) extends CloudEventFields where
  valid : toCloudEventFields.validate platform = .ok toCloudEventFields

/-! ### Validation is idempotent -/

/-- Members in strictly increasing key order. -/
def SortedMembers (ms : Members) : Prop := (ms.map Prod.fst).Pairwise (· < ·)

theorem string_lt_of_not {a b : String} (h : ¬ a < b) (hne : a ≠ b) : b < a :=
  lt_of_le_of_ne (not_lt.mp h) hne.symm

theorem mem_insertMember {key k : String} {value : Json} {ms : Members}
    (h : k ∈ (insertMember key value ms).map Prod.fst) : k = key ∨ k ∈ ms.map Prod.fst := by
  induction ms with
  | nil => simpa [insertMember] using h
  | cons e ms ih =>
    obtain ⟨l, v⟩ := e
    unfold insertMember at h
    split_ifs at h with h₁ h₂
    · simpa using h
    · subst h₂
      simp only [List.map_cons, List.mem_cons] at h ⊢
      tauto
    · simp only [List.map_cons, List.mem_cons] at h ⊢
      rcases h with h | h
      · exact .inr (.inl h)
      · rcases ih h with h | h
        · exact .inl h
        · exact .inr (.inr h)

theorem sorted_insertMember {key : String} {value : Json} {ms : Members} (h : SortedMembers ms) :
    SortedMembers (insertMember key value ms) := by
  induction ms with
  | nil => simp [insertMember, SortedMembers]
  | cons e ms ih =>
    obtain ⟨l, v⟩ := e
    simp only [SortedMembers, List.map_cons, List.pairwise_cons] at h
    unfold insertMember
    split_ifs with h₁ h₂
    · refine List.pairwise_cons.mpr ⟨fun k hk => ?_, List.pairwise_cons.mpr h⟩
      rcases List.mem_cons.mp hk with rfl | hk
      · exact h₁
      · exact lt_trans h₁ (h.1 k hk)
    · subst h₂
      exact List.pairwise_cons.mpr h
    · refine List.pairwise_cons.mpr ⟨fun k hk => ?_, ih h.2⟩
      rcases mem_insertMember hk with rfl | hk
      · exact string_lt_of_not h₁ h₂
      · exact h.1 k hk

/-- Appending the largest key is insertion. -/
theorem insertMember_last {key : String} {value : Json} {ms : Members}
    (h : ∀ k ∈ ms.map Prod.fst, k < key) : insertMember key value ms = ms ++ [(key, value)] := by
  induction ms with
  | nil => rfl
  | cons e ms ih =>
    obtain ⟨l, v⟩ := e
    have hl : l < key := h l (by simp)
    rw [insertMember, if_neg (lt_asymm hl), if_neg (ne_of_gt hl), ih fun k hk => h k (by simp [hk]),
      List.cons_append]

theorem foldl_insertMember_sorted (ms acc : Members)
    (h : SortedMembers (acc ++ ms)) :
    ms.foldl (fun acc e => insertMember e.1 e.2 acc) acc = acc ++ ms := by
  induction ms generalizing acc with
  | nil => simp
  | cons e ms ih =>
    have hlast : ∀ k ∈ acc.map Prod.fst, k < e.1 := by
      intro k hk
      simp only [SortedMembers, List.map_append, List.pairwise_append, List.map_cons] at h
      exact h.2.2 k hk e.1 (by simp)
    rw [List.foldl_cons, insertMember_last hlast, ih _ (by simpa using h)]
    simp

theorem foldl_trimKeys_spec (ms acc : Members) (hs : SortedMembers acc)
    (ht : ∀ k ∈ acc.map Prod.fst, Trimmed k) :
    SortedMembers (ms.foldl (fun acc e => insertMember (trim e.1) e.2 acc) acc) ∧
      ∀ k ∈ (ms.foldl (fun acc e => insertMember (trim e.1) e.2 acc) acc).map Prod.fst, Trimmed k := by
  induction ms generalizing acc with
  | nil => exact ⟨hs, ht⟩
  | cons e ms ih =>
    refine ih _ (sorted_insertMember hs) fun k hk => ?_
    rcases mem_insertMember hk with rfl | hk
    · exact trimmed_trim _
    · exact ht k hk

theorem foldl_trimKeys_of_trimmed (ms acc : Members) (ht : ∀ k ∈ ms.map Prod.fst, Trimmed k) :
    ms.foldl (fun acc e => insertMember (trim e.1) e.2 acc) acc =
      ms.foldl (fun acc e => insertMember e.1 e.2 acc) acc := by
  induction ms generalizing acc with
  | nil => rfl
  | cons e ms ih =>
    have he : trim e.1 = e.1 := ht e.1 (by simp)
    rw [List.foldl_cons, List.foldl_cons, he]
    exact ih _ fun k hk => ht k (by simp [hk])

theorem map_trim_trim (s : Option String) : (s.map trim).map trim = s.map trim := by
  cases s with
  | none => rfl
  | some s => exact congrArg some (trimmed_trim s)

theorem CloudEventFields.trimmed_trimmed (f : CloudEventFields) : f.trimmed.trimmed = f.trimmed := by
  obtain ⟨hs, ht⟩ := foldl_trimKeys_spec f.data [] (by simp [SortedMembers]) (by simp)
  have hd := foldl_trimKeys_of_trimmed _ [] ht
  rw [foldl_insertMember_sorted _ [] (by simpa using hs), List.nil_append] at hd
  simp only [CloudEventFields.trimmed, map_trim_trim, CloudEventFields.mk.injEq, true_and, and_true]
  exact ⟨trimmed_trim _, trimmed_trim _, trimmed_trim _, trimmed_trim _, trimmed_trim _,
    trimmed_trim _, hd⟩

theorem CloudEventFields.validate_idem {platform : Platform} {f g : CloudEventFields}
    (h : f.validate platform = .ok g) : g.validate platform = .ok g := by
  unfold validate at h ⊢
  cases hc : f.trimmed.check platform with
  | error e => simp [hc, bind, Except.bind] at h
  | ok _ =>
    simp only [hc, bind, Except.bind, pure, Except.pure, Except.ok.injEq] at h
    subst h
    rw [f.trimmed_trimmed]
    simp [hc, bind, Except.bind, pure, Except.pure]

/-- `CloudEvent(...)`. -/
def CloudEvent.create (platform : Platform) (f : CloudEventFields) :
    Except PyError (CloudEvent platform) :=
  match h : f.validate platform with
  | .ok g => .ok ⟨g, CloudEventFields.validate_idem h⟩
  | .error e => .error e

namespace CloudEvent

variable {platform : Platform}

theorem create_eq_ok {f : CloudEventFields} {e : CloudEvent platform}
    (h : CloudEvent.create platform f = .ok e) : e.toCloudEventFields = f.trimmed := by
  unfold CloudEvent.create at h
  split at h
  · next g hg =>
    cases h
    obtain ⟨_, -, hret⟩ := except_bind_eq_ok.mp hg
    cases hret; rfl
  · cases h

def textJson : Option String → Json
  | none => .null
  | some s => .str s

theorem textJson_injective : Function.Injective textJson := by
  intro a b h
  cases a <;> cases b <;> simp_all [textJson]

/-- `event.model_dump(mode="json")`. -/
def json (e : CloudEventFields) : Json :=
  .obj [("causation_id", textJson e.causationId), ("correlation_id", .str e.correlationId),
    ("data", .obj e.data), ("id", .str e.id),
    ("payload_fingerprint", textJson e.payloadFingerprint), ("source", .str e.source),
    ("source_event_id", textJson e.sourceEventId), ("specversion", .str e.specversion),
    ("subject", textJson e.subject), ("tenant_id", .str e.tenantId), ("time", .str e.time.json),
    ("timezone", textJson e.timezone), ("type", .str e.type)]

end CloudEvent

/-! ## Outbox messages -/

structure OutboxMessage (platform : Platform) where
  id : String
  tenantId : String
  event : CloudEvent platform
  idempotencyKey : String
  dispatchStatus : DeliveryStatus
  claimToken : Option String
  claimOwner : Option String
  claimedUntil : Option Instant
  nextAttemptAt : Option Instant
  attempts : Nat
  createdAt : Instant
  sendingAt : Option Instant
  publishedAt : Option Instant
  lastError : Option DeliveryError

namespace OutboxMessage

variable {platform : Platform}

/-- `not value` of an optional text. -/
def isBlank : Option String → Bool
  | none => true
  | some s => s = ""

def retainsClaim (m : OutboxMessage platform) : Bool :=
  m.claimToken.isSome || m.claimOwner.isSome || m.claimedUntil.isSome

def lacksClaim (m : OutboxMessage platform) : Bool :=
  isBlank m.claimToken || isBlank m.claimOwner || m.claimedUntil.isNone

/-- The after-validator of the message model, branch by branch. -/
def requireStateMetadata (m : OutboxMessage platform) : Except PyError Unit :=
  match m.dispatchStatus with
  | .pending =>
    if m.retainsClaim || m.sendingAt.isSome || m.publishedAt.isSome then
      .error (.validationError "pending outbox messages cannot retain claim or sending metadata")
    else .ok ()
  | .claimed =>
    if m.lacksClaim then
      .error (.validationError "claimed outbox messages require token, owner, and lease")
    else if m.sendingAt.isSome || m.publishedAt.isSome then
      .error (.validationError "claimed outbox messages cannot have delivery timestamps")
    else .ok ()
  | .sending =>
    if m.lacksClaim || m.sendingAt.isNone || m.attempts < 1 then
      .error (.validationError
        "sending outbox messages require claim metadata, sending_at, and attempt")
    else if m.publishedAt.isSome then
      .error (.validationError "sending outbox messages cannot have published_at")
    else .ok ()
  | .published =>
    if m.publishedAt.isNone then
      .error (.validationError "published outbox messages require published_at")
    else if m.lastError.isSome then
      .error (.validationError "published outbox messages cannot retain last_error")
    else if m.retainsClaim then
      .error (.validationError "published outbox messages cannot retain a claim")
    else .ok ()
  | .failed =>
    if m.lastError.isNone || !((m.sendingAt.isNone && m.attempts == 0) ||
        (m.sendingAt.isSome && m.attempts ≥ 1)) then
      .error (.validationError "failed outbox messages require pre-I/O or sending evidence")
    else if m.publishedAt.isSome then
      .error (.validationError "failed messages cannot have published_at")
    else if m.retainsClaim then
      .error (.validationError "terminal outbox messages cannot retain a claim")
    else .ok ()
  | .uncertain =>
    if m.sendingAt.isNone || m.lastError.isNone || m.attempts < 1 then
      .error (.validationError "uncertain outbox messages require attempt, sending_at, and error")
    else if m.publishedAt.isSome then
      .error (.validationError "failed or uncertain messages cannot have published_at")
    else if m.retainsClaim then
      .error (.validationError "terminal outbox messages cannot retain a claim")
    else .ok ()

/-- `str_strip_whitespace` on the message's own texts. -/
def trimmed (m : OutboxMessage platform) : OutboxMessage platform :=
  { m with
    id := trim m.id
    tenantId := trim m.tenantId
    idempotencyKey := trim m.idempotencyKey
    claimToken := m.claimToken.map trim
    claimOwner := m.claimOwner.map trim }

/-- `OutboxMessage.model_validate`: trim, check lengths, then the state metadata. The nested event is
already validated. -/
def modelValidate (m : OutboxMessage platform) : Except PyError (OutboxMessage platform) := do
  requireNonempty m.trimmed.tenantId
  requireNonempty m.trimmed.idempotencyKey
  m.trimmed.requireStateMetadata
  return m.trimmed

/-- The state metadata rules as one proposition. -/
def StateMetadata (m : OutboxMessage platform) : Prop := m.requireStateMetadata = .ok ()

instance (m : OutboxMessage platform) : Decidable m.StateMetadata :=
  inferInstanceAs (Decidable (m.requireStateMetadata = .ok ()))

/-- Texts that a repeated validation leaves alone. -/
structure Normal (m : OutboxMessage platform) : Prop where
  id : Trimmed m.id
  tenantId : Trimmed m.tenantId
  idempotencyKey : Trimmed m.idempotencyKey
  claimToken : ∀ t ∈ m.claimToken, Trimmed t
  claimOwner : ∀ t ∈ m.claimOwner, Trimmed t
  tenantId_ne : m.tenantId ≠ ""
  idempotencyKey_ne : m.idempotencyKey ≠ ""

theorem map_trim_of_trimmed {s : Option String} (h : ∀ t ∈ s, Trimmed t) : s.map trim = s := by
  cases s with
  | none => rfl
  | some t => exact congrArg some (h t rfl)

theorem Normal.trimmed_eq {m : OutboxMessage platform} (h : m.Normal) : m.trimmed = m := by
  have hid : trim m.id = m.id := h.id
  have ht : trim m.tenantId = m.tenantId := h.tenantId
  have hk : trim m.idempotencyKey = m.idempotencyKey := h.idempotencyKey
  unfold trimmed
  rw [hid, ht, hk, map_trim_of_trimmed h.claimToken, map_trim_of_trimmed h.claimOwner]

theorem requireNonempty_eq_ok {s : String} : requireNonempty s = .ok () ↔ s ≠ "" := by
  unfold requireNonempty; split_ifs <;> simp_all

/-- On normal texts validation only checks the state metadata. -/
theorem Normal.modelValidate {m : OutboxMessage platform} (h : m.Normal) :
    m.modelValidate = (do m.requireStateMetadata; return m) := by
  unfold OutboxMessage.modelValidate
  rw [h.trimmed_eq, requireNonempty_eq_ok.mpr h.tenantId_ne,
    requireNonempty_eq_ok.mpr h.idempotencyKey_ne]
  rfl

theorem normal_trimmed {m : OutboxMessage platform} (ht : m.trimmed.tenantId ≠ "")
    (hk : m.trimmed.idempotencyKey ≠ "") : m.trimmed.Normal where
  id := trimmed_trim _
  tenantId := trimmed_trim _
  idempotencyKey := trimmed_trim _
  claimToken t h := by
    obtain ⟨u, -, rfl⟩ := Option.map_eq_some_iff.mp h
    exact trimmed_trim u
  claimOwner t h := by
    obtain ⟨u, -, rfl⟩ := Option.map_eq_some_iff.mp h
    exact trimmed_trim u
  tenantId_ne := ht
  idempotencyKey_ne := hk

/-- A successful validation returns the trimmed message, normal and with its state metadata. -/
theorem modelValidate_eq_ok {m m' : OutboxMessage platform} (h : m.modelValidate = .ok m') :
    m' = m.trimmed ∧ m'.Normal ∧ m'.StateMetadata := by
  unfold OutboxMessage.modelValidate at h
  obtain ⟨_, ht, h⟩ := except_bind_eq_ok.mp h
  obtain ⟨_, hk, h⟩ := except_bind_eq_ok.mp h
  obtain ⟨_, hs, h⟩ := except_bind_eq_ok.mp h
  cases h
  exact ⟨rfl, normal_trimmed (requireNonempty_eq_ok.mp ht) (requireNonempty_eq_ok.mp hk), hs⟩

end OutboxMessage

end PersonalAssistant
