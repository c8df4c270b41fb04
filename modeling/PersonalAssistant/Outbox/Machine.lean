import PersonalAssistant.Lib.Runs
import PersonalAssistant.Outbox.Methods

/-!
# The outbox state machine

`OutboxCall` lists the calls on an in-memory outbox and `Reachable` the outboxes that any sequence of
them by trusted principals produces. Every stored message keeps its state metadata, every call moves
messages along the lines of the delivery machine only, and a call that raises changes nothing.
-/
namespace PersonalAssistant

open Lib

variable {platform : Platform}

/-- One call on an outbox, with the identifiers and clock readings it draws. -/
inductive OutboxCall (platform : Platform) where
  | add (principal : Principal) (event : CloudEvent platform) (idempotencyKey : String)
      (nextAttemptAt : Option DateTime) (messageId : Option String) (fresh : Uuid) (now : Instant)
  | claimDue (principal : Principal) (now : DateTime) (limit : Int) (owner : String)
      (leaseSeconds : Int) (eventType : Option String) (tokens : Key → Uuid)
  | markSending (principal : Principal) (messageId claimToken : String) (startedAt : DateTime)
  | markClaimFailed (principal : Principal) (messageId claimToken : String) (error : DeliveryError)
  | markPublished (principal : Principal) (messageId claimToken : String)
      (publishedAt : Option DateTime) (clock : Instant)
  | markFailed (principal : Principal) (messageId claimToken : String) (error : DeliveryError)
  | markUncertain (principal : Principal) (messageId claimToken : String) (error : DeliveryError)
  | release (principal : Principal) (messageId claimToken : String)
      (nextAttemptAt : Option DateTime)
  | reschedule (principal : Principal) (messageId claimToken : String) (nextAttemptAt : DateTime)
      (error : DeliveryError)
  | sweepExpiredSending (principal : Principal) (now : DateTime) (error : DeliveryError)
      (limit : Int) (eventType : Option String)
  | resolveUncertainDelivered (principal : Principal) (messageId : String) (publishedAt : DateTime)
  | resolveUncertainRetry (principal : Principal) (messageId : String) (nextAttemptAt : DateTime)

namespace OutboxCall

def principal : OutboxCall platform → Principal
  | add p .. | claimDue p .. | markSending p .. | markClaimFailed p .. | markPublished p ..
  | markFailed p .. | markUncertain p .. | release p .. | reschedule p ..
  | sweepExpiredSending p .. | resolveUncertainDelivered p .. | resolveUncertainRetry p .. => p

/-- A method that returns one message, as a call that returns a batch of one. -/
def single {σ : Type} (x : Op σ PyError (OutboxMessage platform)) :
    Op σ PyError (List (OutboxMessage platform)) := do
  let m ← x
  return [m]

def run : OutboxCall platform → InMemoryOutbox.Method platform (List (OutboxMessage platform))
  | add p event key next id fresh now => single (InMemoryOutbox.add p event key next id fresh now)
  | claimDue p now limit owner lease type tokens =>
    InMemoryOutbox.claimDue p now limit owner lease type tokens
  | markSending p id token startedAt => single (InMemoryOutbox.markSending p id token startedAt)
  | markClaimFailed p id token error => single (InMemoryOutbox.markClaimFailed p id token error)
  | markPublished p id token publishedAt clock =>
    single (InMemoryOutbox.markPublished p id token publishedAt clock)
  | markFailed p id token error => single (InMemoryOutbox.markFailed p id token error)
  | markUncertain p id token error => single (InMemoryOutbox.markUncertain p id token error)
  | release p id token next => single (InMemoryOutbox.release p id token next)
  | reschedule p id token next error => single (InMemoryOutbox.reschedule p id token next error)
  | sweepExpiredSending p now error limit type =>
    InMemoryOutbox.sweepExpiredSending p now error limit type
  | resolveUncertainDelivered p id publishedAt =>
    single (InMemoryOutbox.resolveUncertainDelivered p id publishedAt)
  | resolveUncertainRetry p id next => single (InMemoryOutbox.resolveUncertainRetry p id next)

/-- The clock of a claiming call. -/
def claimTime : OutboxCall platform → Option Instant
  | claimDue _ now .. => (now.canonicalUtc "now").toOption
  | _ => none

end OutboxCall

namespace InMemoryOutbox

/-! ## Lines of the machine -/

/-- The status changes a call may make; a claimed message is claimed again only once its lease
expired. -/
def Line (expired : Prop) : DeliveryStatus → DeliveryStatus → Prop
  | .pending, .claimed => True
  | .claimed, .claimed => expired
  | .claimed, .sending | .claimed, .failed | .claimed, .pending => True
  | .sending, .published | .sending, .failed | .sending, .uncertain | .sending, .pending => True
  | .uncertain, .published | .uncertain, .pending => True
  | _, _ => False

/-- One message moved: along a line, keeping its identity, counting the attempt when it is sent. -/
structure Move (claimTime : Option Instant) (m m' : OutboxMessage platform) : Prop where
  line : Line (∃ now ∈ claimTime, isExpired now m.claimedUntil = true)
    m.dispatchStatus m'.dispatchStatus
  id : m'.id = m.id
  tenantId : m'.tenantId = m.tenantId
  event : m'.event = m.event
  idempotencyKey : m'.idempotencyKey = m.idempotencyKey
  createdAt : m'.createdAt = m.createdAt
  attempts : m'.attempts = m.attempts +
    if m.dispatchStatus = .claimed ∧ m'.dispatchStatus = .sending then 1 else 0

/-- What a call does to the stored messages: keep or move each, and add new ones as pending. -/
structure Changes (claimTime : Option Instant) (s s' : InMemoryOutbox platform) : Prop where
  kept : ∀ k m, s.messagesByKey.get? k = some m →
    ∃ m', s'.messagesByKey.get? k = some m' ∧ (m' = m ∨ Move claimTime m m')
  added : ∀ k m', s'.messagesByKey.get? k = some m' → s.messagesByKey.get? k = none →
    m'.dispatchStatus = .pending ∧ m'.attempts = 0

theorem Changes.refl (claimTime : Option Instant) (s : InMemoryOutbox platform) :
    Changes claimTime s s :=
  ⟨fun _ m h => ⟨m, h, .inl rfl⟩, fun _ _ h h' => by simp [h'] at h⟩

/-- A stored message is normal, carries the metadata of its state and lives in its tenant. -/
structure Sound (k : Key) (m : OutboxMessage platform) : Prop where
  normal : m.Normal
  metadata : m.StateMetadata
  tenant : m.tenantId = k.1

def Inv (s : InMemoryOutbox platform) : Prop := ∀ k m, s.messagesByKey.get? k = some m → Sound k m

/-! ## One step -/

variable {s s' : InMemoryOutbox platform} {claimTime : Option Instant}

/-- Storing a moved message in its place is a change that keeps the invariant. -/
theorem setMessage_spec {k : Key} {m m' : OutboxMessage platform} (hinv : Inv s)
    (hm : s.messagesByKey.get? k = some m) (hmove : Move claimTime m m') (hs : Sound k m') :
    Inv (s.setMessage k m') ∧ Changes claimTime s (s.setMessage k m') := by
  refine ⟨fun j n hn => ?_, fun j n hn => ?_, fun j n hn hnone => ?_⟩
  · rw [messagesByKey_setMessage, Dict.get?_set] at hn
    split_ifs at hn with hj
    · cases hn; exact hj ▸ hs
    · exact hinv j n hn
  · rw [messagesByKey_setMessage, Dict.get?_set]
    split_ifs with hj
    · subst hj
      cases hm.symm.trans hn
      exact ⟨m', rfl, .inr hmove⟩
    · exact ⟨n, hn, .inl rfl⟩
  · rw [messagesByKey_setMessage, Dict.get?_set] at hn
    split_ifs at hn with hj
    · subst hj; simp [hm] at hnone
    · simp [hnone] at hn

/-- A batch whose updates all move their messages. -/
theorem Batch.spec {due : Key → OutboxMessage platform → Bool}
    {update : Key → OutboxMessage platform → Except PyError (OutboxMessage platform)}
    {done : List (Key × OutboxMessage platform)} (h : Batch due update s done s') (hinv : Inv s)
    (hmove : ∀ k m m', Sound k m → due k m = true → update k m = .ok m' →
      Move claimTime m m' ∧ Sound k m') :
    Inv s' ∧ Changes claimTime s s' := by
  refine ⟨fun k m' hm' => ?_, fun k m hm => ?_, fun k m' hm' hnone => ?_⟩
  · rcases h.get? k with hk | ⟨m, n, hm, hd, hu, hn⟩
    · exact hinv k m' (hk ▸ hm')
    · cases hn.symm.trans hm'
      exact (hmove k m m' (hinv k m hm) hd hu).2
  · rcases h.get? k with hk | ⟨n, m', hn, hd, hu, hm'⟩
    · exact ⟨m, hk.trans hm, .inl rfl⟩
    · cases hn.symm.trans hm
      exact ⟨m', hm', .inr (hmove k m m' (hinv k m hm) hd hu).1⟩
  · rcases h.get? k with hk | ⟨n, -, hn, -⟩
    · simp [hk.symm.trans hm'] at hnone
    · simp [hn] at hnone

/-- A message whose texts are those of a normal one and that validates is sound. -/
theorem Sound.of_validate {k : Key} {m n m' : OutboxMessage platform} (h : Sound k m)
    (hid : n.id = m.id) (ht : n.tenantId = m.tenantId) (hk : n.idempotencyKey = m.idempotencyKey)
    (htok : n.claimToken = none ∨ n.claimToken = m.claimToken)
    (hown : n.claimOwner = none ∨ n.claimOwner = m.claimOwner)
    (hv : n.modelValidate = .ok m') : m' = n ∧ Sound k m' := by
  have hn : n.Normal := by
    refine ⟨hid ▸ h.normal.id, ht ▸ h.normal.tenantId, hk ▸ h.normal.idempotencyKey, ?_, ?_,
      ht ▸ h.normal.tenantId_ne, hk ▸ h.normal.idempotencyKey_ne⟩
    · rcases htok with htok | htok <;> rw [htok]
      · simp
      · exact h.normal.claimToken
    · rcases hown with hown | hown <;> rw [hown]
      · simp
      · exact h.normal.claimOwner
  obtain ⟨hm', hnorm, hmeta⟩ := OutboxMessage.modelValidate_eq_ok hv
  rw [hn.trimmed_eq] at hm'
  subst hm'
  exact ⟨rfl, hnorm, hmeta, ht.trans h.tenant⟩

/-- An update of a single message that only touches delivery fields and follows a line. -/
structure Follows (expected : DeliveryStatus)
    (updates : OutboxMessage platform → OutboxMessage platform) : Prop where
  move : ∀ m, m.dispatchStatus = expected → Move none m (updates m)
  claimToken : ∀ m, (updates m).claimToken = none ∨ (updates m).claimToken = m.claimToken
  claimOwner : ∀ m, (updates m).claimOwner = none ∨ (updates m).claimOwner = m.claimOwner

theorem Follows.store {expected : DeliveryStatus}
    {updates : OutboxMessage platform → OutboxMessage platform} (h : Follows expected updates)
    {k : Key} {m m' : OutboxMessage platform} (hinv : Inv s) (hm : s.messagesByKey.get? k = some m)
    (hst : m.dispatchStatus = expected) (hv : (updates m).modelValidate = .ok m') :
    m' = updates m ∧ Inv (s.setMessage k m') ∧ Changes none s (s.setMessage k m') := by
  have hmove := h.move m hst
  obtain ⟨rfl, hs⟩ := (hinv k m hm).of_validate hmove.id hmove.tenantId hmove.idempotencyKey
    (h.claimToken m) (h.claimOwner m) hv
  exact ⟨rfl, setMessage_spec hinv hm hmove hs⟩

/-- The three things every call guarantees. -/
def StepSpec {α : Type} (claimTime : Option Instant) (x : Method platform α) : Prop :=
  ∀ s r s', Inv s → x s = (r, s') →
    Inv s' ∧ Changes claimTime s s' ∧ ∀ e, r = .error e → s' = s

theorem line_of_ne {expired : Prop} {a b : DeliveryStatus} (h : Line False a b) : Line expired a b := by
  cases a <;> cases b <;> first | exact h | exact h.elim

theorem unchanged_spec {r : Except PyError (OutboxMessage platform)} {e : PyError}
    (hinv : Inv s) (h : r = .error e ∧ s' = s) :
    Inv s' ∧ Changes claimTime s s' ∧ ∀ e, r = .error e → s' = s := by
  obtain ⟨-, rfl⟩ := h
  exact ⟨hinv, .refl _ _, fun _ _ => rfl⟩

theorem stepSpec_transition {principal : Principal} {messageId claimToken : String}
    {expected : DeliveryStatus} {updates : OutboxMessage platform → OutboxMessage platform}
    (hf : Follows expected updates) :
    StepSpec none (transition principal messageId claimToken expected updates) := by
  intro s r s' hinv h
  rcases transition_cases h with ⟨e, he⟩ | ⟨k, m, m', -, hfind, -, hst, hv, rfl, rfl⟩
  · exact unchanged_spec hinv he
  · obtain ⟨-, hi, hc⟩ := hf.store hinv (find?_eq_some hfind).1 hst hv
    exact ⟨hi, hc, by simp⟩

theorem stepSpec_operatorTransition {principal : Principal} {messageId : String}
    {updates : OutboxMessage platform → OutboxMessage platform} (hf : Follows .uncertain updates) :
    StepSpec none (operatorTransition principal messageId updates) := by
  intro s r s' hinv h
  rcases operatorTransition_cases h with ⟨e, he⟩ | ⟨k, m, m', -, hfind, hst, hv, rfl, rfl⟩
  · exact unchanged_spec hinv he
  · obtain ⟨-, hi, hc⟩ := hf.store hinv (find?_eq_some hfind).1 hst hv
    exact ⟨hi, hc, by simp⟩

/-- A timestamp check in front of a method. -/
theorem StepSpec.check {α β : Type} {x : Except PyError β} {f : β → Method platform α}
    (h : ∀ b, StepSpec claimTime (f b)) : StepSpec claimTime (Op.ofExcept x >>= f) := by
  intro s r s' hinv hrun
  rcases Op.ofExcept_bind_cases hrun with ⟨e, -, ho⟩ | ⟨b, -, hb⟩
  · cases ho; exact ⟨hinv, .refl _ _, fun _ _ => rfl⟩
  · exact h b s r s' hinv hb

theorem follows_sendingCopy (startedAt : Instant) :
    Follows .claimed (@sendingCopy platform startedAt) :=
  ⟨fun m h => ⟨by rw [h]; trivial, rfl, rfl, rfl, rfl, rfl, by simp [h, sendingCopy]⟩,
    fun _ => .inr rfl, fun _ => .inr rfl⟩

theorem follows_errorCopy {expected target : DeliveryStatus} (hl : Line False expected target)
    (hne : target ≠ .sending) (error : DeliveryError) :
    Follows expected (@errorCopy platform target error) :=
  ⟨fun m h => ⟨line_of_ne (h ▸ hl), rfl, rfl, rfl, rfl, rfl, by simp [errorCopy, clearClaim, hne]⟩,
    fun _ => .inl rfl, fun _ => .inl rfl⟩

theorem follows_publishedCopy (publishedAt : Instant) : Follows .sending
    fun m => @publishedCopy platform publishedAt (clearClaim m) :=
  ⟨fun m h => ⟨by rw [h]; trivial, rfl, rfl, rfl, rfl, rfl,
      by simp [publishedCopy, clearClaim]⟩,
    fun _ => .inl rfl, fun _ => .inl rfl⟩

theorem follows_releasedCopy (next : Option Instant) :
    Follows .claimed (@releasedCopy platform next) :=
  ⟨fun m h => ⟨by rw [h]; trivial, rfl, rfl, rfl, rfl, rfl,
      by simp [releasedCopy, clearClaim]⟩,
    fun _ => .inl rfl, fun _ => .inl rfl⟩

theorem follows_rescheduledCopy (next : Instant) (error : DeliveryError) :
    Follows .sending (@rescheduledCopy platform next error) :=
  ⟨fun m h => ⟨by rw [h]; trivial, rfl, rfl, rfl, rfl, rfl,
      by simp [rescheduledCopy, clearClaim]⟩,
    fun _ => .inl rfl, fun _ => .inl rfl⟩

theorem follows_deliveredCopy (publishedAt : Instant) :
    Follows .uncertain (@publishedCopy platform publishedAt) :=
  ⟨fun m h => ⟨by rw [h]; trivial, rfl, rfl, rfl, rfl, rfl, by simp [publishedCopy]⟩,
    fun _ => .inr rfl, fun _ => .inr rfl⟩

theorem follows_retryCopy (next : Instant) :
    Follows .uncertain (@retryCopy platform next) :=
  ⟨fun m h => ⟨by rw [h]; trivial, rfl, rfl, rfl, rfl, rfl, by simp [retryCopy]⟩,
    fun _ => .inr rfl, fun _ => .inr rfl⟩

/-! ## Batches and additions -/

theorem normalizeOwner_eq_ok {owner o : String} (h : normalizeOwner owner = .ok o) :
    Trimmed o ∧ o ≠ "" := by
  unfold normalizeOwner at h
  obtain ⟨_, h₁, h⟩ := except_bind_eq_ok.mp h
  obtain ⟨_, -, h⟩ := except_bind_eq_ok.mp h
  obtain ⟨_, -, h⟩ := except_bind_eq_ok.mp h
  cases h
  exact ⟨trimmed_strip owner, by simpa using h₁⟩

/-- The text of a claim token. -/
theorem claimToken_spec (u : Uuid) : Trimmed ("claim_" ++ u.hex) ∧ "claim_" ++ u.hex ≠ "" := by
  refine ⟨trimmed_append_of_not_isSpace (forall_not_isSpace (by decide)) u.not_isSpace, fun h => ?_⟩
  have := congrArg String.toList h
  simp at this

/-- Claiming a due message follows a line and leaves a complete claim. -/
theorem claimedCopy_spec {principal : Principal} {now : Instant} {eventType : Option String}
    {owner o : String} {lease : Int} {tokens : Key → Uuid} {k : Key} {m m' : OutboxMessage platform}
    (ho : normalizeOwner owner = .ok o) (hs : Sound k m)
    (hd : claimable principal now eventType k m = true)
    (hu : claimedCopy o now lease tokens k m = .ok m') : Move (some now) m m' ∧ Sound k m' := by
  unfold claimedCopy at hu
  obtain ⟨until_, -, hu⟩ := except_bind_eq_ok.mp hu
  cases hu
  obtain ⟨hot, hone⟩ := normalizeOwner_eq_ok ho
  obtain ⟨htok, htne⟩ := claimToken_spec (tokens k)
  simp only [claimable, Bool.and_eq_true, Bool.or_eq_true, decide_eq_true_eq] at hd
  have hmeta := hs.metadata
  have hline : (m.dispatchStatus = .pending ∨
      m.dispatchStatus = .claimed ∧ isExpired now m.claimedUntil = true) := hd.1.2
  refine ⟨⟨?_, rfl, rfl, rfl, rfl, rfl, by simp⟩, ⟨⟨hs.normal.id, hs.normal.tenantId,
    hs.normal.idempotencyKey, by simpa using htok, by simpa using hot, hs.normal.tenantId_ne,
    hs.normal.idempotencyKey_ne⟩, ?_, hs.tenant⟩⟩
  · rcases hline with h | ⟨h, he⟩
    · rw [h]
      trivial
    · rw [h]
      exact ⟨now, rfl, he⟩
  · have hno : m.sendingAt = none ∧ m.publishedAt = none := by
      rcases hline with h | ⟨h, -⟩ <;>
        simp only [OutboxMessage.StateMetadata, OutboxMessage.requireStateMetadata, h] at hmeta <;>
        split_ifs at hmeta <;> simp_all
    simp [OutboxMessage.StateMetadata, OutboxMessage.requireStateMetadata, OutboxMessage.lacksClaim,
      OutboxMessage.isBlank, hno, hone]

theorem stepSpec_claimDue (principal : Principal) (now : DateTime) (limit : Int) (owner : String)
    (leaseSeconds : Int) (eventType : Option String) (tokens : Key → Uuid) :
    StepSpec (now.canonicalUtc "now").toOption
      (@claimDue platform principal now limit owner leaseSeconds eventType tokens) := by
  intro s r s' hinv h
  rcases claimDue_cases h with ⟨e, rfl, rfl⟩ | ⟨t, o, done, -, ht, -, -, ho, hb, rfl⟩
  · exact ⟨hinv, .refl _ _, fun _ _ => rfl⟩
  · rw [ht]
    obtain ⟨hi, hc⟩ := hb.spec hinv fun k m m' hs hd hu => claimedCopy_spec ho hs hd hu
    exact ⟨hi, hc, by simp⟩

/-- A message in `sending` can become uncertain: it has everything the metadata asks for. -/
theorem errorCopy_uncertain_validates {k : Key} {m : OutboxMessage platform} (hs : Sound k m)
    (h : m.dispatchStatus = .sending) (error : DeliveryError) :
    (errorCopy .uncertain error m).modelValidate = .ok (errorCopy .uncertain error m) := by
  have hn : (errorCopy .uncertain error m).Normal :=
    ⟨hs.normal.id, hs.normal.tenantId, hs.normal.idempotencyKey, by simp [errorCopy, clearClaim],
      by simp [errorCopy, clearClaim], hs.normal.tenantId_ne, hs.normal.idempotencyKey_ne⟩
  have hmeta := hs.metadata
  simp only [OutboxMessage.StateMetadata, OutboxMessage.requireStateMetadata, h] at hmeta
  split_ifs at hmeta with h₁ h₂
  have hok : (errorCopy .uncertain error m).requireStateMetadata = .ok () := by
    simp only [Bool.or_eq_true, not_or] at h₁
    simp_all [OutboxMessage.requireStateMetadata, errorCopy, clearClaim, OutboxMessage.retainsClaim]
  rw [hn.modelValidate, hok]
  rfl

theorem stepSpec_sweepExpiredSending (principal : Principal) (now : DateTime) (error : DeliveryError)
    (limit : Int) (eventType : Option String) :
    StepSpec none
      (@sweepExpiredSending platform principal now error limit eventType) := by
  intro s r s' hinv h
  rcases sweepExpiredSending_cases h with ⟨e, rfl, rfl⟩ | ⟨t, done, -, -, -, hb, hr⟩
  · exact ⟨hinv, .refl _ _, fun _ _ => rfl⟩
  · have hsending : ∀ k (m : OutboxMessage platform), sweepable principal t eventType k m = true →
        m.dispatchStatus = .sending := by
      intro k m hd
      simp only [sweepable, Bool.and_eq_true, decide_eq_true_eq] at hd
      exact hd.1.2
    have hmove : ∀ k (m m' : OutboxMessage platform), Sound k m →
        sweepable principal t eventType k m = true →
        (errorCopy .uncertain error m).modelValidate = .ok m' → Move none m m' ∧ Sound k m' := by
      intro k m m' hs hd hu
      have hf : Follows .sending (@errorCopy platform .uncertain error) :=
        follows_errorCopy (by trivial) (by decide) error
      obtain ⟨rfl, hs'⟩ := hs.of_validate (n := errorCopy .uncertain error m) rfl rfl rfl
        (.inl rfl) (.inl rfl) hu
      exact ⟨hf.move m (hsending k m hd), hs'⟩
    obtain ⟨hi, hc⟩ := hb.spec hinv hmove
    refine ⟨hi, hc, fun e he => ?_⟩
    rcases hr with rfl | ⟨e', k, m, -, hm, hd, hv⟩
    · cases he
    · rw [errorCopy_uncertain_validates (hinv k m hm) (hsending k m hd)] at hv
      cases hv

theorem stepSpec_add (principal : Principal) (event : CloudEvent platform) (idempotencyKey : String)
    (nextAttemptAt : Option DateTime) (messageId : Option String) (fresh : Uuid) (now : Instant) :
    StepSpec none (add principal event idempotencyKey nextAttemptAt messageId fresh now) := by
  intro s r s' hinv h
  rcases add_cases h with ⟨e, rfl, rfl⟩ | ⟨next, -, -, -, ⟨m, -, -, rfl, rfl⟩ | ⟨m, hnone, hv, -, -,
    rfl, rfl⟩⟩
  · exact ⟨hinv, .refl _ _, fun _ _ => rfl⟩
  · exact ⟨hinv, .refl _ _, by simp⟩
  · obtain ⟨hm, hnorm, hmeta⟩ := OutboxMessage.modelValidate_eq_ok hv
    have htenant : m.tenantId = principal.tenantId := by
      rw [hm]; exact principal.tenant.trimmed
    refine ⟨fun k n hn => ?_, ⟨fun k n hn => ?_, fun k n hn hk => ?_⟩, by simp⟩
    · simp only [Dict.get?_set] at hn
      split_ifs at hn with hk
      · cases hn; exact ⟨hnorm, hmeta, by rw [hk]; exact htenant⟩
      · exact hinv k n hn
    · simp only [Dict.get?_set]
      split_ifs with hk
      · subst hk; simp [hnone] at hn
      · exact ⟨n, hn, .inl rfl⟩
    · simp only [Dict.get?_set] at hn
      split_ifs at hn with hkey
      · cases hn; rw [hm]; exact ⟨rfl, rfl⟩
      · simp [hk] at hn

end InMemoryOutbox

/-! ## Runs -/

open InMemoryOutbox

/-- Every call keeps the invariant and only makes the changes of the machine. -/
theorem OutboxCall.stepSpec (call : OutboxCall platform) : StepSpec call.claimTime call.run := by
  have lift : ∀ {x : Method platform (OutboxMessage platform)}, StepSpec none x →
      StepSpec none (single x) := by
    intro x hx s r s' hinv h
    rcases hxs : x s with ⟨rx, t⟩
    obtain ⟨hi, hc, he⟩ := hx s rx t hinv hxs
    cases rx with
    | error e =>
      rw [single, Op.bind_error hxs] at h
      cases h
      exact ⟨hi, hc, fun e' he' => he e rfl⟩
    | ok m =>
      rw [single, Op.bind_ok hxs] at h
      cases h
      exact ⟨hi, hc, by simp⟩
  cases call with
  | add p event key next id fresh now => exact lift (stepSpec_add p event key next id fresh now)
  | claimDue p now limit owner lease type tokens =>
    exact stepSpec_claimDue p now limit owner lease type tokens
  | markSending p id token startedAt =>
    exact lift (.check fun t => stepSpec_transition (follows_sendingCopy t))
  | markClaimFailed p id token error =>
    exact lift (stepSpec_transition (follows_errorCopy (by trivial) (by decide) error))
  | markPublished p id token publishedAt clock =>
    exact lift (.check fun t => stepSpec_transition (follows_publishedCopy t))
  | markFailed p id token error =>
    exact lift (stepSpec_transition (follows_errorCopy (by trivial) (by decide) error))
  | markUncertain p id token error =>
    exact lift (stepSpec_transition (follows_errorCopy (by trivial) (by decide) error))
  | release p id token next =>
    exact lift (.check fun t => stepSpec_transition (follows_releasedCopy t))
  | reschedule p id token next error =>
    exact lift (.check fun t => stepSpec_transition (follows_rescheduledCopy t error))
  | sweepExpiredSending p now error limit type =>
    exact stepSpec_sweepExpiredSending p now error limit type
  | resolveUncertainDelivered p id publishedAt =>
    exact lift (.check fun t => stepSpec_operatorTransition (follows_deliveredCopy t))
  | resolveUncertainRetry p id next =>
    exact lift (.check fun t => stepSpec_operatorTransition (follows_retryCopy t))

/-- Outboxes produced by calls of trusted principals. -/
inductive InMemoryOutbox.Reachable : InMemoryOutbox platform → Prop where
  | empty : Reachable .empty
  | call {s : InMemoryOutbox platform} (c : OutboxCall platform) :
      Reachable s → c.principal.trusted = true → Reachable (c.run s).2

theorem InMemoryOutbox.Reachable.inv {s : InMemoryOutbox platform} (h : Reachable s) : Inv s := by
  induction h with
  | empty => intro k m hm; simp [InMemoryOutbox.empty] at hm
  | @call s c _ _ ih => exact (c.stepSpec s (c.run s).1 (c.run s).2 ih rfl).1

theorem InMemoryOutbox.Line.not_terminal {p : Prop} {a b : DeliveryStatus} (h : Line p a b) :
    a ≠ .published ∧ a ≠ .failed := by
  constructor <;> rintro rfl <;> cases b <;> exact h

/-- The state machine of every reachable outbox: stored messages satisfy the state metadata, a call
moves messages along the lines only, keeping identities and counting attempts, published and failed
messages never change, and a call that raises leaves every stored message unchanged. -/
theorem InMemoryOutbox.state_machine {s : InMemoryOutbox platform} (h : Reachable s) :
    (∀ k m, s.messagesByKey.get? k = some m → m.requireStateMetadata = .ok ()) ∧
    ∀ call : OutboxCall platform, call.principal.trusted = true →
      (∀ k m, s.messagesByKey.get? k = some m →
        ∃ m', (call.run s).2.messagesByKey.get? k = some m' ∧
          (m' = m ∨ Move call.claimTime m m') ∧
          (m.dispatchStatus = .published ∨ m.dispatchStatus = .failed → m' = m)) ∧
      (∀ k m', (call.run s).2.messagesByKey.get? k = some m' → s.messagesByKey.get? k = none →
        m'.dispatchStatus = .pending ∧ m'.attempts = 0) ∧
      ∀ e, (call.run s).1 = .error e →
        (call.run s).2.messagesByKey = s.messagesByKey := by
  refine ⟨fun k m hm => (h.inv k m hm).metadata, fun call _ => ?_⟩
  obtain ⟨-, hc, he⟩ := call.stepSpec s (call.run s).1 (call.run s).2 h.inv rfl
  refine ⟨fun k m hm => ?_, hc.added, fun e herr => by rw [he e herr]⟩
  obtain ⟨m', hm', hmove⟩ := hc.kept k m hm
  refine ⟨m', hm', hmove, fun hterm => ?_⟩
  rcases hmove with rfl | hmove
  · rfl
  · obtain ⟨hp, hf⟩ := hmove.line.not_terminal
    exact absurd hterm (by simp [hp, hf])

/-! ### A stored message -/

def sampleFields : CloudEventFields where
  id := "evt-1"
  specversion := "1.0"
  type := "notification.requested"
  source := "personal_assistant.application.reminders"
  subject := some "rem-1"
  tenantId := "tenant-1"
  correlationId := "corr-1"
  causationId := none
  sourceEventId := none
  payloadFingerprint := none
  timezone := none
  data := []
  time := ⟨0, Nat.zero_le _⟩

/-- Knows the digest of the one document that is hashed below. -/
def samplePlatform : Platform :=
  .ofTable [(jsonText (writeDocument sampleFields none (some "out-1")),
    ⟨"1befb71215e28f23156f3fe9f4ed33a250cb9f7ceb0da7daac682ab05070766d", by decide⟩)]

def sampleEvent : CloudEvent samplePlatform := ⟨sampleFields, by rfl⟩

def Uuid.zero : Uuid := ⟨String.ofList (List.replicate 32 '0'), by decide⟩

def sampleAdd : OutboxCall samplePlatform :=
  .add .sample sampleEvent "key-1" none (some "out-1") .zero ⟨0, Nat.zero_le _⟩

def sampleNow : DateTime := .ofInstant ⟨60000001, by decide⟩

/-- The message is claimed, handed to the provider and published. -/
def sampleDelivery : List (OutboxCall samplePlatform) :=
  let token := "claim_" ++ Uuid.zero.hex
  [sampleAdd, .claimDue .sample sampleNow 1 "worker-1" 60 none fun _ => .zero,
    .markSending .sample "out-1" token sampleNow,
    .markPublished .sample "out-1" token (some sampleNow) ⟨0, Nat.zero_le _⟩]

/-- A second result for the same claim. -/
def sampleLate : OutboxCall samplePlatform :=
  .release .sample "out-1" ("claim_" ++ Uuid.zero.hex) none

/-- The message is published by the run, and nothing changes it any more. -/
theorem state_machine_delivery : ∃ m,
    (after OutboxCall.run .empty sampleDelivery).messagesByKey.get? ("tenant-1", "key-1") = some m ∧
      m.dispatchStatus = .published ∧ m.attempts = 1 ∧ m.requireStateMetadata = .ok () ∧
      (sampleLate.run (after OutboxCall.run .empty sampleDelivery)).2.messagesByKey.get?
        ("tenant-1", "key-1") = some m := by
  have hstored : ((after OutboxCall.run .empty sampleDelivery).messagesByKey.get?
      ("tenant-1", "key-1")).map (fun m => (m.dispatchStatus, m.attempts)) = some (.published, 1) := by
    decide +kernel
  obtain ⟨m, hm, hfields⟩ := Option.map_eq_some_iff.mp hstored
  simp only [Prod.mk.injEq] at hfields
  have hreachable : InMemoryOutbox.Reachable (after OutboxCall.run .empty sampleDelivery) :=
    after_inv InMemoryOutbox.Reachable (fun c => c.principal.trusted = true) (fun c s hc hs => .call c hs hc)
      .empty (by decide)
  obtain ⟨hmetadata, hcalls⟩ := InMemoryOutbox.state_machine hreachable
  obtain ⟨m', hm', -, hterminal⟩ := (hcalls sampleLate rfl).1 _ m hm
  rw [hterminal (.inl hfields.1)] at hm'
  exact ⟨m, hm, hfields.1, hfields.2, hmetadata _ m hm, hm'⟩

end PersonalAssistant
