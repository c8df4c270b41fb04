import PersonalAssistant.Lib.Index
import PersonalAssistant.Lib.Runs
import PersonalAssistant.Outbox.Machine

/-!
# The indexes of an outbox

The four maps of an outbox stay in step. `add` stores a message under the idempotency key it was given,
while the message holds the trimmed one, so the maps agree as long as no message is stored under a key
with outer blanks. Repeating an `add` returns the stored message, whatever the key.
-/
namespace PersonalAssistant

open Lib

variable {platform : Platform}

namespace InMemoryOutbox

/-- Every message stands under its own tenant and key, both identifier indexes list exactly the stored
messages, and every message has a write fingerprint. -/
structure Indexed (s : InMemoryOutbox platform) : Prop where
  own : ∀ k m, s.messagesByKey.get? k = some m → m.tenantId = k.1 ∧ m.idempotencyKey = k.2
  messageIds : Indexes s.keyByMessageId s.messagesByKey OutboxMessage.id
  eventIds : Indexes s.keyByEventId s.messagesByKey fun m => m.event.id
  fingerprints : ∀ k m, s.messagesByKey.get? k = some m → (s.fingerprints.get? k).isSome

/-- The identity of a message. -/
structure SameIdentity (m m' : OutboxMessage platform) : Prop where
  id : m'.id = m.id
  tenantId : m'.tenantId = m.tenantId
  event : m'.event = m.event
  idempotencyKey : m'.idempotencyKey = m.idempotencyKey
  createdAt : m'.createdAt = m.createdAt

theorem SameIdentity.refl (m : OutboxMessage platform) : SameIdentity m m := ⟨rfl, rfl, rfl, rfl, rfl⟩

theorem SameIdentity.trans {a b c : OutboxMessage platform} (h : SameIdentity a b)
    (g : SameIdentity b c) : SameIdentity a c where
  id := g.id.trans h.id
  tenantId := g.tenantId.trans h.tenantId
  event := g.event.trans h.event
  idempotencyKey := g.idempotencyKey.trans h.idempotencyKey
  createdAt := g.createdAt.trans h.createdAt

/-- Only stored messages were rewritten, each keeping its identity. -/
structure Rewrites (s s' : InMemoryOutbox platform) : Prop where
  messageIds : s'.keyByMessageId = s.keyByMessageId
  eventIds : s'.keyByEventId = s.keyByEventId
  fingerprints : s'.fingerprints = s.fingerprints
  kept : ∀ k m, s.messagesByKey.get? k = some m →
    ∃ m', s'.messagesByKey.get? k = some m' ∧ SameIdentity m m'
  absent : ∀ k, s.messagesByKey.get? k = none → s'.messagesByKey.get? k = none

variable {s s' : InMemoryOutbox platform}

theorem Rewrites.of_get? {k : Key} (h : Rewrites s s') {m' : OutboxMessage platform}
    (hm' : s'.messagesByKey.get? k = some m') :
    ∃ m, s.messagesByKey.get? k = some m ∧ SameIdentity m m' := by
  cases hm : s.messagesByKey.get? k with
  | none => cases (h.absent k hm).symm.trans hm'
  | some m =>
    obtain ⟨n, hn, hid⟩ := h.kept k m hm
    cases hn.symm.trans hm'
    exact ⟨m, rfl, hid⟩

theorem Rewrites.map {α : Type} (h : Rewrites s s') {f : OutboxMessage platform → α}
    (hf : ∀ m m', SameIdentity m m' → f m' = f m) (k : Key) :
    (s'.messagesByKey.get? k).map f = (s.messagesByKey.get? k).map f := by
  cases hm : s.messagesByKey.get? k with
  | none => rw [h.absent k hm]
  | some m =>
    obtain ⟨m', hm', hid⟩ := h.kept k m hm
    simp [hm', hf m m' hid]

theorem Indexed.rewrites (h : s.Indexed) (hr : Rewrites s s') : s'.Indexed where
  own k m' hm' := by
    obtain ⟨m, hm, hid⟩ := hr.of_get? hm'
    rw [hid.tenantId, hid.idempotencyKey]
    exact h.own k m hm
  messageIds := by
    rw [hr.messageIds]
    exact h.messageIds.rewrite (hr.map fun m m' hid => hid.id)
  eventIds := by
    rw [hr.eventIds]
    exact h.eventIds.rewrite (hr.map fun m m' hid => by rw [hid.event])
  fingerprints k m' hm' := by
    obtain ⟨m, hm, -⟩ := hr.of_get? hm'
    rw [hr.fingerprints]
    exact h.fingerprints k m hm

/-! ## Calls that store nothing new -/

/-- What a call that adds no message leaves alone. -/
structure Frame (s s' : InMemoryOutbox platform) : Prop where
  messageIds : s'.keyByMessageId = s.keyByMessageId
  eventIds : s'.keyByEventId = s.keyByEventId
  fingerprints : s'.fingerprints = s.fingerprints
  absent : ∀ k, s.messagesByKey.get? k = none → s'.messagesByKey.get? k = none

theorem Frame.refl (s : InMemoryOutbox platform) : Frame s s := ⟨rfl, rfl, rfl, fun _ h => h⟩

theorem Frame.setMessage {k : Key} {m m' : OutboxMessage platform}
    (hm : s.messagesByKey.get? k = some m) : Frame s (s.setMessage k m') := by
  refine ⟨rfl, rfl, rfl, fun j hj => ?_⟩
  rw [messagesByKey_setMessage, Dict.get?_set_of_ne]
  · exact hj
  · rintro rfl
    cases hm.symm.trans hj

theorem Batch.frame {due : Key → OutboxMessage platform → Bool}
    {update : Key → OutboxMessage platform → Except PyError (OutboxMessage platform)}
    {done : List (Key × OutboxMessage platform)} (h : Batch due update s done s') : Frame s s' := by
  obtain ⟨h₁, h₂, h₃⟩ := s.setMessages_indexes done
  refine ⟨by rw [h.state, h₁], by rw [h.state, h₂], by rw [h.state, h₃], fun k hk => ?_⟩
  obtain hget | ⟨m, m', hm, -⟩ := h.get? k
  · rw [hget, hk]
  · cases hm.symm.trans hk

theorem frame_transition {principal : Principal} {messageId claimToken : String}
    {expected : DeliveryStatus} {updates : OutboxMessage platform → OutboxMessage platform} :
    Op.Preserves Frame (transition principal messageId claimToken expected updates) := by
  intro s
  rcases hrun : transition principal messageId claimToken expected updates s with ⟨r, s'⟩
  obtain ⟨e, -, rfl⟩ | ⟨k, m, m', -, hfind, -, -, -, -, rfl⟩ := transition_cases hrun
  · exact .refl s'
  · exact .setMessage (find?_eq_some hfind).1

theorem frame_operatorTransition {principal : Principal} {messageId : String}
    {updates : OutboxMessage platform → OutboxMessage platform} :
    Op.Preserves Frame (operatorTransition principal messageId updates) := by
  intro s
  rcases hrun : operatorTransition principal messageId updates s with ⟨r, s'⟩
  obtain ⟨e, -, rfl⟩ | ⟨k, m, m', -, hfind, -, -, -, rfl⟩ := operatorTransition_cases hrun
  · exact .refl s'
  · exact .setMessage (find?_eq_some hfind).1

theorem frame_claimDue (principal : Principal) (now : DateTime) (limit : Int) (owner : String)
    (leaseSeconds : Int) (eventType : Option String) (tokens : Key → Uuid) :
    Op.Preserves (@Frame platform)
      (claimDue principal now limit owner leaseSeconds eventType tokens) := by
  intro s
  rcases hrun : claimDue principal now limit owner leaseSeconds eventType tokens s with ⟨r, s'⟩
  obtain ⟨e, -, rfl⟩ | ⟨t, o, done, -, -, -, -, -, hbatch, -⟩ := claimDue_cases hrun
  · exact .refl s'
  · exact hbatch.frame

theorem frame_sweepExpiredSending (principal : Principal) (now : DateTime) (error : DeliveryError)
    (limit : Int) (eventType : Option String) :
    Op.Preserves (@Frame platform) (sweepExpiredSending principal now error limit eventType) := by
  intro s
  rcases hrun : sweepExpiredSending principal now error limit eventType s with ⟨r, s'⟩
  obtain ⟨e, -, rfl⟩ | ⟨t, done, -, -, -, hbatch, -⟩ := sweepExpiredSending_cases hrun
  · exact .refl s'
  · exact hbatch.frame

end InMemoryOutbox

open InMemoryOutbox

namespace OutboxCall

variable {s : InMemoryOutbox platform}

def isAdd : OutboxCall platform → Bool
  | add .. => true
  | _ => false

theorem frame_single {x : InMemoryOutbox.Method platform (OutboxMessage platform)}
    (h : Op.Preserves Frame x) : Op.Preserves Frame (single x) := by
  intro s
  have hs := h s
  rw [single, Op.bind_apply]
  rcases hx : x s with ⟨_ | m, t⟩
  · simpa [hx] using hs
  · simpa [hx] using hs

theorem frame_check {α β : Type} {x : Except PyError β} {f : β → InMemoryOutbox.Method platform α}
    (h : ∀ b, Op.Preserves Frame (f b)) : Op.Preserves Frame (Op.ofExcept x >>= f) := by
  intro s
  cases x with
  | error e => exact .refl s
  | ok b => exact h b s

/-- A call other than `add` frames the indexes. -/
theorem frame_run {c : OutboxCall platform} (h : c.isAdd = false) : Op.Preserves Frame c.run := by
  cases c with
  | add => cases h
  | claimDue p now limit owner lease type tokens => exact frame_claimDue p now limit owner lease type tokens
  | markSending => exact frame_single (frame_check fun _ => frame_transition)
  | markClaimFailed => exact frame_single frame_transition
  | markPublished => exact frame_single (frame_check fun _ => frame_transition)
  | markFailed => exact frame_single frame_transition
  | markUncertain => exact frame_single frame_transition
  | release => exact frame_single (frame_check fun _ => frame_transition)
  | reschedule => exact frame_single (frame_check fun _ => frame_transition)
  | sweepExpiredSending p now error limit type =>
    exact frame_sweepExpiredSending p now error limit type
  | resolveUncertainDelivered => exact frame_single (frame_check fun _ => frame_operatorTransition)
  | resolveUncertainRetry => exact frame_single (frame_check fun _ => frame_operatorTransition)

/-- Stored messages keep their identity through any call. -/
theorem kept_run (c : OutboxCall platform) (inv : Inv s) {k : Key} {m : OutboxMessage platform}
    (hm : s.messagesByKey.get? k = some m) :
    ∃ m', (c.run s).2.messagesByKey.get? k = some m' ∧ SameIdentity m m' := by
  obtain ⟨-, changes, -⟩ := c.stepSpec s (c.run s).1 (c.run s).2 inv rfl
  obtain ⟨m', hm', rfl | move⟩ := changes.kept k m hm
  · exact ⟨m', hm', .refl m'⟩
  · exact ⟨m', hm', ⟨move.id, move.tenantId, move.event, move.idempotencyKey, move.createdAt⟩⟩

theorem rewrites_run {c : OutboxCall platform} (h : c.isAdd = false) (inv : Inv s) :
    Rewrites s (c.run s).2 := by
  have frame := frame_run h s
  exact ⟨frame.messageIds, frame.eventIds, frame.fingerprints, fun k m => c.kept_run inv,
    frame.absent⟩

end OutboxCall

/-! ## Adding -/

namespace InMemoryOutbox

variable {s s' : InMemoryOutbox platform} {principal : Principal} {event : CloudEvent platform}
  {idempotencyKey : String} {nextAttemptAt : Option DateTime} {messageId : Option String} {fresh : Uuid}
  {now : Instant}

/-- `add` passes its checks, finds its key free and both identifiers unused. -/
structure Accepts (principal : Principal) (event : CloudEvent platform) (idempotencyKey : String)
    (nextAttemptAt : Option DateTime) (messageId : Option String) (fresh : Uuid) (now : Instant)
    (s : InMemoryOutbox platform) (next : Option Instant) (m : OutboxMessage platform) : Prop where
  trusted : principal.trusted = true
  tenant : event.tenantId = principal.tenantId
  canonical : canonicalOption nextAttemptAt "next_attempt_at" = .ok next
  absent : s.messagesByKey.get? (principal.tenantId, idempotencyKey) = none
  valid : (newMessage principal event idempotencyKey next (messageId.getD ("out_" ++ fresh.hex))
    now).modelValidate = .ok m
  freeId : takenByOther s.keyByMessageId (principal.tenantId, m.id) idempotencyKey = false
  freeEvent : takenByOther s.keyByEventId (principal.tenantId, event.id) idempotencyKey = false

/-- The outbox with a new message in all four maps. -/
def stored (principal : Principal) (idempotencyKey : String) (fingerprint : Digest)
    (s : InMemoryOutbox platform) (m : OutboxMessage platform) : InMemoryOutbox platform where
  messagesByKey := s.messagesByKey.set (principal.tenantId, idempotencyKey) m
  keyByMessageId := s.keyByMessageId.set (principal.tenantId, m.id) idempotencyKey
  keyByEventId := s.keyByEventId.set (principal.tenantId, m.event.id) idempotencyKey
  fingerprints := s.fingerprints.set (principal.tenantId, idempotencyKey) fingerprint

theorem Accepts.event_eq {next : Option Instant} {m : OutboxMessage platform}
    (h : Accepts principal event idempotencyKey nextAttemptAt messageId fresh now s next m) :
    m.event = event := by
  rw [(OutboxMessage.modelValidate_eq_ok h.valid).1]
  rfl

theorem Accepts.key_eq {next : Option Instant} {m : OutboxMessage platform}
    (h : Accepts principal event idempotencyKey nextAttemptAt messageId fresh now s next m) :
    m.idempotencyKey = trim idempotencyKey := by
  rw [(OutboxMessage.modelValidate_eq_ok h.valid).1]
  rfl

theorem Accepts.tenant_eq {next : Option Instant} {m : OutboxMessage platform}
    (h : Accepts principal event idempotencyKey nextAttemptAt messageId fresh now s next m) :
    m.tenantId = principal.tenantId := by
  rw [(OutboxMessage.modelValidate_eq_ok h.valid).1]
  exact principal.tenant.trimmed

/-- An accepted `add` stores its message. -/
theorem Accepts.add_eq {next : Option Instant} {m : OutboxMessage platform}
    (h : Accepts principal event idempotencyKey nextAttemptAt messageId fresh now s next m) :
    add principal event idempotencyKey nextAttemptAt messageId fresh now s = (.ok m,
      s.stored principal idempotencyKey
        (platform.fingerprint (writeDocument event.toCloudEventFields next messageId)) m) := by
  unfold add
  simp only [requireTrustedPrincipal_of_trusted h.trusted, h.tenant, decide_true, require_true,
    Op.ofExcept_ok_bind, h.canonical, Op.get_bind, h.absent, h.valid, h.freeId, h.freeEvent,
    Bool.false_eq_true, if_false, Op.modify_bind]
  rw [stored, h.event_eq]
  rfl

/-- `add` leaves the outbox alone or accepts its arguments. -/
theorem add_accepts {r : Except PyError (OutboxMessage platform)}
    (h : add principal event idempotencyKey nextAttemptAt messageId fresh now s = (r, s')) :
    s' = s ∨ ∃ next m,
      Accepts principal event idempotencyKey nextAttemptAt messageId fresh now s next m := by
  obtain ⟨e, -, rfl⟩ | ⟨next, htr, hten, hnext, ⟨m, -, -, -, rfl⟩ | ⟨m, hnone, hv, h₁, h₂, -, -⟩⟩ :=
    add_cases h
  · exact .inl rfl
  · exact .inl rfl
  · exact .inr ⟨next, m, htr, hten, hnext, hnone, hv, h₁, h₂⟩

/-- Storing a message under its own key keeps the maps in step. -/
theorem Indexed.stored {m : OutboxMessage platform} {fingerprint : Digest} (h : s.Indexed)
    (absent : s.messagesByKey.get? (principal.tenantId, idempotencyKey) = none)
    (tenant : m.tenantId = principal.tenantId) (key : m.idempotencyKey = idempotencyKey)
    (freeId : takenByOther s.keyByMessageId (principal.tenantId, m.id) idempotencyKey = false)
    (freeEvent : takenByOther s.keyByEventId (principal.tenantId, m.event.id) idempotencyKey = false) :
    (s.stored principal idempotencyKey fingerprint m).Indexed where
  own k n hn := by
    simp only [InMemoryOutbox.stored, Dict.get?_set] at hn
    split_ifs at hn with hk
    · cases hn
      rw [hk]
      exact ⟨tenant, key⟩
    · exact h.own k n hn
  messageIds := h.messageIds.set (takenByOther_eq_false.mp freeId) fun old hold => by
    cases absent.symm.trans hold
  eventIds := @Indexes.set _ _ _ _ _ _ _ _ _ (fun m : OutboxMessage platform => m.event.id) h.eventIds
    _ _ m (takenByOther_eq_false.mp freeEvent) fun old hold => by cases absent.symm.trans hold
  fingerprints k n hn := by
    simp only [InMemoryOutbox.stored, Dict.get?_set] at hn ⊢
    split_ifs at hn ⊢ with hk
    · rfl
    · exact h.fingerprints k n hn

/-- What an `add` that returned leaves behind: its message and the fingerprint of the write. -/
theorem add_leaves {m : OutboxMessage platform}
    (h : add principal event idempotencyKey nextAttemptAt messageId fresh now s = (.ok m, s')) :
    ∃ next, principal.trusted = true ∧ event.tenantId = principal.tenantId ∧
      canonicalOption nextAttemptAt "next_attempt_at" = .ok next ∧
      s'.messagesByKey.get? (principal.tenantId, idempotencyKey) = some m ∧
      s'.fingerprints.get? (principal.tenantId, idempotencyKey) = some
        (platform.fingerprint (writeDocument event.toCloudEventFields next messageId)) := by
  obtain ⟨e, he, -⟩ | ⟨next, htr, hten, hnext, ⟨m', hm', hfp, hr, rfl⟩ | ⟨m', -, -, -, -, hr, rfl⟩⟩ :=
    add_cases h
  · cases he
  · cases hr
    exact ⟨next, htr, hten, hnext, hm', hfp⟩
  · cases hr
    exact ⟨next, htr, hten, hnext, by simp, by simp⟩

/-- An `add` that finds its message and the fingerprint of its write returns the message. -/
theorem add_again {next : Option Instant} {m : OutboxMessage platform}
    (trusted : principal.trusted = true) (tenant : event.tenantId = principal.tenantId)
    (canonical : canonicalOption nextAttemptAt "next_attempt_at" = .ok next)
    (hm : s.messagesByKey.get? (principal.tenantId, idempotencyKey) = some m)
    (hfp : s.fingerprints.get? (principal.tenantId, idempotencyKey) = some
      (platform.fingerprint (writeDocument event.toCloudEventFields next messageId))) :
    add principal event idempotencyKey nextAttemptAt messageId fresh now s = (.ok m, s) := by
  unfold add
  simp only [requireTrustedPrincipal_of_trusted trusted, tenant, decide_true, require_true,
    Op.ofExcept_ok_bind, canonical, Op.get_bind, hm, hfp, ne_eq, not_true_eq_false, if_false]
  rfl

end InMemoryOutbox

/-! ## Histories -/

namespace OutboxCall

variable {s : InMemoryOutbox platform}

/-- An `add` that stores a message under a key with outer blanks. -/
def StoresUntrimmed (s : InMemoryOutbox platform) : OutboxCall platform → Prop
  | add p event key next id fresh now =>
    (∃ t m, Accepts p event key next id fresh now s t m) ∧ ¬ Trimmed key
  | _ => False

/-- After the call the maps are in step, no two messages of a tenant share an identifier or key, and
repeating an `add` that returned gives the same message and stores nothing, at any later time. -/
structure Keeps (c : OutboxCall platform) (s : InMemoryOutbox platform) : Prop where
  indexed : (c.run s).2.Indexed
  unique : ∀ tenantId key key' m m', (c.run s).2.messagesByKey.get? (tenantId, key) = some m →
    (c.run s).2.messagesByKey.get? (tenantId, key') = some m' →
    m.id = m'.id ∨ m.event.id = m'.event.id ∨ m.idempotencyKey = m'.idempotencyKey → key = key'
  repeats : ∀ p event key next id fresh now m, c = add p event key next id fresh now →
    (c.run s).1 = .ok [m] → ∀ later fresh' now', ∃ m', SameIdentity m m' ∧
      (add p event key next id fresh' now').run (after run (c.run s).2 later) =
        (.ok [m'], after run (c.run s).2 later)

theorem Indexed.unique (h : s.Indexed) {tenantId key key' : String} {m m' : OutboxMessage platform}
    (hm : s.messagesByKey.get? (tenantId, key) = some m)
    (hm' : s.messagesByKey.get? (tenantId, key') = some m')
    (same : m.id = m'.id ∨ m.event.id = m'.event.id ∨ m.idempotencyKey = m'.idempotencyKey) :
    key = key' := by
  obtain hid | hevent | hkey := same
  · exact h.messageIds.eq_of_attribute hm hm' hid
  · exact h.eventIds.eq_of_attribute hm hm' hevent
  · exact (h.own _ _ hm).2.symm.trans (hkey.trans (h.own _ _ hm').2)

theorem run_add_snd {p : Principal} {event : CloudEvent platform} {key : String}
    {next : Option DateTime} {id : Option String} {fresh : Uuid} {now : Instant} :
    ((add p event key next id fresh now).run s).2 =
      (InMemoryOutbox.add p event key next id fresh now s).2 := by
  rw [run, single, Op.bind_apply]
  rcases InMemoryOutbox.add p event key next id fresh now s with ⟨_ | m, t⟩ <;> rfl

/-- A stored message and its fingerprint survive every call. -/
theorem run_keeps_write (c : OutboxCall platform) (inv : Inv s) {k : Key} {m : OutboxMessage platform}
    {fingerprint : Digest} (hm : s.messagesByKey.get? k = some m)
    (hfp : s.fingerprints.get? k = some fingerprint) :
    (c.run s).2.fingerprints.get? k = some fingerprint ∧
      ∃ m', (c.run s).2.messagesByKey.get? k = some m' ∧ SameIdentity m m' := by
  refine ⟨?_, c.kept_run inv hm⟩
  cases hadd : c.isAdd with
  | false => rw [(frame_run hadd s).fingerprints, hfp]
  | true =>
    cases c with
    | add p event key next id fresh now =>
      rw [run_add_snd]
      rcases hrun : InMemoryOutbox.add p event key next id fresh now s with ⟨r, t⟩
      obtain rfl | ⟨canonical, n, accepts⟩ := add_accepts hrun
      · exact hfp
      · rw [accepts.add_eq] at hrun
        cases hrun
        have hne : k ≠ (p.tenantId, key) := by
          rintro rfl
          cases accepts.absent.symm.trans hm
        simpa [stored, hne] using hfp
    | _ => cases hadd

theorem repeats (inv : Inv s) {p : Principal} {event : CloudEvent platform} {key : String}
    {next : Option DateTime} {id : Option String} {fresh : Uuid} {now : Instant}
    {m : OutboxMessage platform} (h : ((add p event key next id fresh now).run s).1 = .ok [m])
    (later : List (OutboxCall platform)) (fresh' : Uuid) (now' : Instant) :
    ∃ m', SameIdentity m m' ∧ (add p event key next id fresh' now').run
      (after run ((add p event key next id fresh now).run s).2 later) =
        (.ok [m'], after run ((add p event key next id fresh now).run s).2 later) := by
  have inv' : Inv ((add p event key next id fresh now).run s).2 :=
    ((add p event key next id fresh now).stepSpec s _ _ inv rfl).1
  rcases hrun : InMemoryOutbox.add p event key next id fresh now s with ⟨_ | n, t⟩
  · rw [run, single, Op.bind_error hrun] at h
    cases h
  · have hrun' : (add p event key next id fresh now).run s = (.ok [n], t) := by
      rw [run, single, Op.bind_ok hrun]
      rfl
    rw [hrun'] at h inv' ⊢
    cases h
    obtain ⟨canonical, htr, hten, hnext, hm, hfp⟩ := add_leaves hrun
    have hlasts : Inv (after run t later) ∧
        (after run t later).fingerprints.get? (p.tenantId, key) = some
          (platform.fingerprint (writeDocument event.toCloudEventFields canonical id)) ∧
        ∃ m', (after run t later).messagesByKey.get? (p.tenantId, key) = some m' ∧
          SameIdentity m m' := by
      refine after_inv (fun u => Inv u ∧ u.fingerprints.get? (p.tenantId, key) = some
          (platform.fingerprint (writeDocument event.toCloudEventFields canonical id)) ∧
          ∃ m', u.messagesByKey.get? (p.tenantId, key) = some m' ∧ SameIdentity m m')
        (fun _ => True) ?_ ⟨inv', hfp, m, hm, .refl m⟩ fun _ _ => trivial
      rintro c u - ⟨hinv, hfp', m', hm', hid⟩
      obtain ⟨hfp'', m'', hm'', hid'⟩ := c.run_keeps_write hinv hm' hfp'
      exact ⟨(c.stepSpec u _ _ hinv rfl).1, hfp'', m'', hm'', hid.trans hid'⟩
    obtain ⟨-, hfp', m', hm', hid⟩ := hlasts
    refine ⟨m', hid, ?_⟩
    rw [run, single, Op.bind_ok (add_again htr hten hnext hm' hfp')]
    rfl

/-- One call keeps the maps in step exactly when it stores nothing under a key with outer blanks. -/
theorem keeps_iff (c : OutboxCall platform) (inv : Inv s) (h : s.Indexed) :
    c.Keeps s ↔ ¬ c.StoresUntrimmed s := by
  have hkeeps : (c.run s).2.Indexed → c.Keeps s := by
    intro hindexed
    refine ⟨hindexed, fun _ _ _ _ _ hm hm' same => Indexed.unique hindexed hm hm' same, ?_⟩
    rintro p event key next id fresh now m rfl hm later fresh' now'
    exact repeats inv hm later fresh' now'
  cases hadd : c.isAdd with
  | false =>
    refine iff_of_true (hkeeps (h.rewrites (rewrites_run hadd inv))) ?_
    cases c <;> simp_all [StoresUntrimmed, isAdd]
  | true =>
    cases c with
    | add p event key next id fresh now =>
      rcases hrun : InMemoryOutbox.add p event key next id fresh now s with ⟨r, t⟩
      constructor
      · rintro hk ⟨⟨canonical, m, accepts⟩, huntrimmed⟩
        have hindexed := hk.indexed
        rw [run_add_snd, accepts.add_eq] at hindexed
        have hown := (hindexed.own (p.tenantId, key) m (by simp [stored])).2
        exact huntrimmed (accepts.key_eq.symm.trans hown)
      · intro hnot
        apply hkeeps
        rw [run_add_snd]
        obtain hs | ⟨canonical, m, accepts⟩ := add_accepts hrun
        · rw [hrun, hs]
          exact h
        · have htrimmed : Trimmed key := by
            by_contra htrim
            exact hnot ⟨⟨canonical, m, accepts⟩, htrim⟩
          rw [accepts.add_eq]
          refine h.stored accepts.absent accepts.tenant_eq (accepts.key_eq.trans htrimmed)
            accepts.freeId ?_
          rw [accepts.event_eq]
          exact accepts.freeEvent
    | _ => cases hadd

theorem indexed_empty : (.empty : InMemoryOutbox platform).Indexed :=
  ⟨fun _ _ h => (by cases h), .empty _, .empty _, fun _ _ h => (by cases h)⟩

/-- Along any history of calls, the four maps are in step after every call exactly when no message is
stored under an idempotency key with outer blanks. -/
theorem indexes_kept_iff (calls : List (OutboxCall platform)) :
    Along run (fun c s => c.Keeps s) .empty calls ↔
      Along run (fun c s => ¬ c.StoresUntrimmed s) .empty calls := by
  refine along_iff (fun s => Inv s ∧ s.Indexed) (fun c s hs => c.keeps_iff hs.1 hs.2)
    (fun c s hs hkeeps => ⟨(c.stepSpec s _ _ hs.1 rfl).1, hkeeps.indexed⟩)
    ⟨fun _ _ h => (by cases h), indexed_empty⟩ calls

/-! ### One key with a blank -/

def blankKeyAdd : OutboxCall samplePlatform :=
  .add .sample sampleEvent " key-1" none (some "out-1") .zero ⟨0, Nat.zero_le _⟩

/-- The message stored under the given key holds another one. -/
theorem blank_key_is_not_kept : ¬ Along run (fun c s => c.Keeps s) .empty [blankKeyAdd] := by
  rintro ⟨keeps, -⟩
  have hkey : ((blankKeyAdd.run .empty).2.messagesByKey.get? ("tenant-1", " key-1")).map
      OutboxMessage.idempotencyKey = some "key-1" := by decide +kernel
  obtain ⟨m, hm, hmkey⟩ := Option.map_eq_some_iff.mp hkey
  have hown := (keeps.indexed.own _ m hm).2
  rw [hmkey] at hown
  exact absurd hown (by decide)

end OutboxCall

end PersonalAssistant
