import PersonalAssistant.UnitOfWork

/-!
# The transactions of a dispatch

`DispatchDueReminders.dispatch` sweeps, claims, and for each claimed message releases it, records it as
malformed, or confirms the send and records its outcome. Each of these is one transaction; they are
written here block by block, with the clock readings as arguments. `Through` says which store calls a
block makes, and every fact about a block follows from facts about these calls.
-/
namespace PersonalAssistant

open Lib InMemoryOutbox InMemoryReminderTransaction ReminderStores Relation

variable {platform : Platform} {α β : Type}

/-! ## Blocks made of store calls -/

/-- One of the allowed store calls, or a commit. -/
def CallStep (ok : StoreCall platform → Prop) (t t' : InMemoryReminderTransaction platform) : Prop :=
  (∃ c, ok c ∧ t' = { t with stores := (c.run t.stores).2 }) ∨ t' = (commit t).2

/-- A block that works on the transaction by allowed calls and commits only. -/
def Through (ok : StoreCall platform → Prop) (x : Block platform α) : Prop :=
  Op.Preserves (ReflTransGen (CallStep ok)) x

namespace Through

variable {ok : StoreCall platform → Prop}

theorem bind {x : Block platform α} {f : α → Block platform β} (hx : Through ok x)
    (hf : ∀ a, Through ok (f a)) : Through ok (x >>= f) :=
  Op.Preserves.bind (fun h g => h.trans g) hx hf

theorem handle {x : Block platform α} {h : PyError → Block platform α} (hx : Through ok x)
    (hh : ∀ e, Through ok (h e)) : Through ok (x.handle h) :=
  Op.Preserves.handle (fun h g => h.trans g) hx hh

theorem pure (a : α) : Through ok (Pure.pure a : Block platform α) :=
  Op.Preserves.pure (fun _ => .refl) a

theorem raise (e : PyError) : Through ok (Op.raise e : Block platform α) :=
  Op.Preserves.raise (fun _ => .refl) e

theorem ofExcept (x : Except PyError α) : Through ok (Op.ofExcept x : Block platform α) :=
  Op.Preserves.ofExcept (fun _ => .refl) x

/-- What follows a check may use that the check passed. -/
theorem check {x : Except PyError α} {f : α → Block platform β}
    (hf : ∀ a, x = .ok a → Through ok (f a)) : Through ok (Op.ofExcept x >>= f) := by
  intro t
  cases x with
  | error e => exact .refl
  | ok a => exact hf a rfl t

theorem commit : Through ok (InMemoryReminderTransaction.commit : Block platform Unit) :=
  fun _ => .single (.inr rfl)

/-- A method that leaves the stores as an allowed call does. -/
theorem store {x : ReminderStores.Method platform α} {c : StoreCall platform} (hc : ok c)
    (hx : ∀ s, (x s).2 = (c.run s).2) : Through ok (InMemoryReminderTransaction.store x) := by
  intro t
  refine .single (.inl ⟨c, hc, ?_⟩)
  rw [← hx]
  rfl

theorem mono {ok' : StoreCall platform → Prop} {x : Block platform α} (hx : Through ok x)
    (h : ∀ c, ok c → ok' c) : Through ok' x := by
  intro t
  refine ReflTransGen.mono ?_ _ _ (hx t)
  rintro t t' (⟨c, hc, rfl⟩ | rfl)
  · exact .inl ⟨c, h c hc, rfl⟩
  · exact .inr rfl

theorem forward {x : Block platform α} (hx : Through ok x) : Forward x := by
  intro t
  have hpath := hx t
  generalize (x t).2 = t' at hpath
  induction hpath with
  | refl => exact ⟨rfl, rfl⟩
  | tail _ step ih =>
    obtain ⟨c, -, rfl⟩ | rfl := step
    · exact ih
    · have hc := @Forward.commit platform
      exact ⟨(hc _).1.trans ih.1, (hc _).2.trans ih.2⟩

/-- What every allowed call keeps, the block keeps. -/
theorem keeps {x : Block platform α} {P : ReminderStores platform → Prop} (hx : Through ok x)
    (hP : ∀ c s, ok c → P s → P (c.run s).2) : Op.Keeps (fun t => P t.stores) x := by
  intro t ht
  have hpath := hx t
  generalize (x t).2 = t' at hpath
  induction hpath with
  | refl => exact ht
  | tail _ step ih =>
    obtain ⟨c, hc, rfl⟩ | rfl := step
    · exact hP c _ hc ih
    · unfold InMemoryReminderTransaction.commit
      split_ifs <;> exact ih

/-- What every allowed call keeps, the transaction keeps, however it ends. -/
theorem begin_ {x : Block platform α} {P : ReminderStores platform → Prop} (hx : Through ok x)
    (hP : ∀ c s, ok c → P s → P (c.run s).2) {principal : Principal} {s : ReminderStores platform}
    (hs : P s) : P (InMemoryReminderTransaction.begin_ principal x s).2 := by
  rcases hb : InMemoryReminderTransaction.begin_ principal x s with ⟨r, s'⟩
  obtain ⟨e, -, rfl⟩ | ⟨a, t, -, hbody, -, rfl⟩ := begin_cases hx.forward hb
  · exact hs
  · have hkept := hx.keeps hP (enter s) hs
    rw [hbody] at hkept
    split_ifs
    · exact hkept
    · exact hs

end Through

/-! ## Constants, errors and delays -/

def MAX_DELIVERY_ATTEMPTS : Nat := 4

def REMINDER_NOTIFICATION_EVENT_TYPE : String := "notification.requested"

/-- `RETRY_DELAYS`, in seconds. -/
def RETRY_DELAYS : List Nat := [30, 120, 300]

/-- `RETRY_DELAYS[attempts - 1]`; the index of no attempt is the last one. -/
def retryDelay (attempts : Nat) : Nat :=
  if attempts = 0 then 300 else RETRY_DELAYS.getD (attempts - 1) 0

/-- The metadata of a delivery result. -/
structure NotificationResult where
  outcome : NotificationOutcome
  providerCode : Option { code : Nat // 100 ≤ code ∧ code ≤ 599 }
  retryAfter : Option Nat
  retryAfter_pos : ∀ seconds ∈ retryAfter, 0 < seconds
  retryAfter_transient : retryAfter.isSome = true → outcome = .knownTransient

/-- A provider code as a delivery error keeps it. -/
def errorProviderCode (code : { code : Nat // 100 ≤ code ∧ code ≤ 599 }) : Fin 10000 :=
  ⟨code.val, by have := code.property; omega⟩

/-- `_known_error`. -/
def knownError (result : NotificationResult) (now : Instant) : DeliveryError :=
  let code := result.providerCode.map Subtype.val
  let (category, errorCode) : DeliveryErrorCategory × DeliveryErrorCode :=
    if code = some 429 then (.rateLimited, .rateLimited)
    else if result.outcome = .knownTransient ∧ code.all (500 ≤ ·) = true then
      (.network, .providerUnavailable)
    else if code = some 401 ∨ code = some 403 then (.rejected, .authenticationFailed)
    else (.rejected, .requestRejected)
  ⟨category, errorCode, result.providerCode.map errorProviderCode, now⟩

/-- `_unknown_error`. -/
def unknownError (now : Instant) (providerCode : Option (Fin 10000)) : DeliveryError :=
  ⟨.unknown, .unknown, providerCode, now⟩

/-- `_invalid_payload_error`. -/
def invalidPayloadError (now : Instant) : DeliveryError := ⟨.internal, .internalError, none, now⟩

/-- `datetime.max`. -/
def Instant.latest : Instant := ⟨maxMicros, le_refl _⟩

/-- The seconds `_retry_at` waits. -/
def retrySeconds (defaultDelay : Nat) : Option Nat → Nat
  | none => defaultDelay
  | some retryAfter => max defaultDelay retryAfter

/-- `_retry_at`: an overflow gives `datetime.max`. -/
def retryAt (now : Instant) (defaultDelay : Nat) (retryAfter : Option Nat) : Instant :=
  (now.addSeconds (retrySeconds defaultDelay retryAfter)).toOption.getD Instant.latest

theorem Instant.micros_of_addSeconds {now t : Instant} {seconds : Nat}
    (h : now.addSeconds seconds = .ok t) : t.micros = now.micros + seconds * microsPerSecond := by
  have hmicros := Instant.micros_of_ofMicros h
  exact_mod_cast hmicros

theorem Instant.lt_of_addSeconds_error {now : Instant} {seconds : Nat} {e : PyError}
    (h : now.addSeconds seconds = .error e) : maxMicros < now.micros + seconds * microsPerSecond := by
  by_contra hlt
  have hle := not_lt.mp hlt
  have hcast : (now.micros : Int) + (seconds : Int) * (microsPerSecond : Int) =
      ((now.micros + seconds * microsPerSecond : Nat) : Int) := by
    push_cast
    rfl
  have hok : now.addSeconds seconds = .ok ⟨_, hle⟩ := by
    unfold Instant.addSeconds Instant.ofMicros
    rw [hcast, dif_pos ⟨Int.natCast_nonneg _, hle⟩]
    rfl
  rw [hok] at h
  cases h

/-- The delay after `now`, or the last timestamp there is. -/
theorem retryAt_micros (now : Instant) (defaultDelay : Nat) (retryAfter : Option Nat) :
    (retryAt now defaultDelay retryAfter).micros =
      min maxMicros (now.micros + max defaultDelay (retryAfter.getD 0) * microsPerSecond) := by
  have hseconds : retrySeconds defaultDelay retryAfter = max defaultDelay (retryAfter.getD 0) := by
    cases retryAfter <;> simp [retrySeconds]
  rw [← hseconds]
  cases hadd : now.addSeconds (retrySeconds defaultDelay retryAfter) with
  | ok t =>
    rw [retryAt, hadd, ← Instant.micros_of_addSeconds hadd]
    exact (Nat.min_eq_right t.le_max).symm
  | error e =>
    rw [retryAt, hadd]
    exact (Nat.min_eq_left (Instant.lt_of_addSeconds_error hadd).le).symm

/-! ## The blocks -/

/-- `_claim_token`. -/
def claimTokenOf (message : OutboxMessage platform) : Except PyError String :=
  match message.claimToken with
  | none => .error (.runtimeError "outbox message has no active claim")
  | some token =>
    if token = "" then .error (.runtimeError "outbox message has no active claim") else .ok token

theorem claimTokenOf_eq_ok {message : OutboxMessage platform} {token : String} :
    claimTokenOf message = .ok token ↔ message.claimToken = some token ∧ token ≠ "" := by
  unfold claimTokenOf
  cases message.claimToken with
  | none => simp
  | some stored =>
    by_cases h : stored = ""
    · simp [h]
    · simp only [h, if_false, Except.ok.injEq, Option.some.injEq]
      grind

/-- `message.event.subject`, where it is not empty. -/
def subjectOf (message : OutboxMessage platform) : Option String :=
  message.event.subject.filter (· ≠ "")

/-- `_mirror`. -/
def mirror (principal : Principal) (message : OutboxMessage platform) : Block platform Unit :=
  match subjectOf message with
  | none => .raise (.valueError "notification outbox message requires reminder subject")
  | some subject => do
    let _ ← store (onScheduler (ReminderScheduler.mirrorDelivery principal subject message))
    return ()

/-- The body `_mirror_terminal` and `_mirror_pre_io_failed` share. -/
def mirrorIfScheduled (principal : Principal) (message : OutboxMessage platform) :
    Block platform Unit :=
  match subjectOf message with
  | none => pure ()
  | some subject =>
    (do let _ ← store (onScheduler (ReminderScheduler.mirrorDelivery principal subject message))
        return ()).handle fun e => if e.code? = some ErrorCode.notFound then pure () else .raise e

/-- `_mirror_terminal`. -/
def mirrorTerminal (principal : Principal) (message : OutboxMessage platform) : Block platform Unit :=
  mirrorIfScheduled principal message

/-- `_mirror_pre_io_failed`. -/
def mirrorPreIoFailed (principal : Principal) (message : OutboxMessage platform) :
    Block platform Unit := mirrorIfScheduled principal message

structure DispatchDueReminders where
  owner : String
  claimLimit : Int
  leaseSeconds : Int

namespace DispatchDueReminders

variable (d : DispatchDueReminders)

/-- Mirror every swept message. -/
def mirrorSwept (principal : Principal) : List (OutboxMessage platform) → Block platform Unit
  | [] => pure ()
  | uncertain :: rest => do
    mirrorTerminal principal uncertain
    mirrorSwept principal rest

/-- `_sweep_expired_sending`. -/
def sweepExpiredSending (principal : Principal) (now : Instant) : Block platform (List String) := do
  let messages ← store (onOutbox (InMemoryOutbox.sweepExpiredSending principal (.ofInstant now)
    (unknownError now none) d.claimLimit (some REMINDER_NOTIFICATION_EVENT_TYPE)))
  mirrorSwept principal messages
  if messages ≠ [] then commit
  return messages.map OutboxMessage.id

/-- A claimed message that cannot be mirrored fails before any input or output. -/
def failClaimed (principal : Principal) (now : Instant) (message : OutboxMessage platform) :
    Block platform (OutboxMessage platform) := do
  let token ← .ofExcept (claimTokenOf message)
  let failed ← store (onOutbox (InMemoryOutbox.markClaimFailed principal message.id token
    (invalidPayloadError now)))
  mirrorPreIoFailed principal failed
  return failed

/-- The loop of `_claim`: the dispatchable messages, and those that failed. -/
def mirrorClaimed (principal : Principal) (now : Instant) :
    List (OutboxMessage platform) →
      Block platform (List (OutboxMessage platform) × List (OutboxMessage platform))
  | [] => pure ([], [])
  | message :: rest => do
    let failed ← (do mirror principal message
                     return none : Block platform (Option (OutboxMessage platform))).handle fun e =>
      if e.isValueError || e.code? = some ErrorCode.notFound then do
        let failed ← failClaimed principal now message
        return some failed
      else .raise e
    let (dispatchable, prefailed) ← mirrorClaimed principal now rest
    match failed with
    | none => return (message :: dispatchable, prefailed)
    | some failed => return (dispatchable, failed :: prefailed)

/-- `_claim`. -/
def claim (principal : Principal) (now : Instant) (tokens : Key → Uuid) :
    Block platform (List (OutboxMessage platform) × List (OutboxMessage platform)) := do
  let messages ← store (onOutbox (claimDue principal (.ofInstant now) d.claimLimit d.owner
    d.leaseSeconds (some REMINDER_NOTIFICATION_EVENT_TYPE) tokens))
  let claimed ← mirrorClaimed principal now messages
  commit
  return claimed

/-- `_confirm_sending`. -/
def confirmSending (principal : Principal) (message : OutboxMessage platform) (now : Instant) :
    Block platform (OutboxMessage platform) := do
  let token ← .ofExcept (claimTokenOf message)
  let sending ← store (onOutbox (markSending principal message.id token (.ofInstant now)))
  mirror principal sending
  commit
  return sending

/-- `_release_before_io`; `now` is the one the message was claimed at. -/
def releaseBeforeIo (principal : Principal) (message : OutboxMessage platform) (now : Instant) :
    Block platform Unit := do
  let token ← .ofExcept (claimTokenOf message)
  let next ← .ofExcept (now.addSeconds 30)
  let pending ← store (onOutbox (release principal message.id token (some (.ofInstant next))))
  mirror principal pending
  commit

/-- `_record_unknown`. -/
def recordUnknown (principal : Principal) (sending : OutboxMessage platform) (now : Instant) :
    Block platform (OutboxMessage platform) := do
  let token ← .ofExcept (claimTokenOf sending)
  let uncertain ← store (onOutbox (markUncertain principal sending.id token (unknownError now none)))
  mirrorTerminal principal uncertain
  commit
  return uncertain

/-- `_record_malformed`. -/
def recordMalformed (principal : Principal) (claimed : OutboxMessage platform) (now : Instant) :
    Block platform (OutboxMessage platform) := do
  let token ← .ofExcept (claimTokenOf claimed)
  let failed ← store (onOutbox (InMemoryOutbox.markClaimFailed principal claimed.id token
    (invalidPayloadError now)))
  mirrorPreIoFailed principal failed
  commit
  return failed

/-- The outbox transition of `_record_result`. -/
def recordOutcome (principal : Principal) (sending : OutboxMessage platform)
    (result : NotificationResult) (now : Instant) (token : String) :
    InMemoryOutbox.Method platform (OutboxMessage platform) :=
  match result.outcome with
  | .success => markPublished principal sending.id token (some (.ofInstant now)) now
  | .knownTransient =>
    if MAX_DELIVERY_ATTEMPTS ≤ sending.attempts then
      InMemoryOutbox.markFailed principal sending.id token (knownError result now)
    else reschedule principal sending.id token
      (.ofInstant (retryAt now (retryDelay sending.attempts) result.retryAfter)) (knownError result now)
  | .permanent => InMemoryOutbox.markFailed principal sending.id token (knownError result now)
  | .unknownOutcome => markUncertain principal sending.id token
      (unknownError now (result.providerCode.map errorProviderCode))

/-- `_record_result`. -/
def recordResult (principal : Principal) (sending : OutboxMessage platform)
    (result : NotificationResult) (now : Instant) : Block platform (OutboxMessage platform) := do
  let token ← .ofExcept (claimTokenOf sending)
  let final ← store (onOutbox (recordOutcome principal sending result now token))
  mirrorTerminal principal final
  commit
  return final

/-- The transaction of `resolve_uncertain`. -/
def resolveUncertain (principal : Principal) (messageId resolution : String) (now : Instant) :
    Block platform (OutboxMessage platform) := do
  let listed ← store (onOutbox (listForTenant principal))
  let current := listed.find? fun item => item.id = messageId
  .ofExcept (require (current.all fun m => m.event.type = REMINDER_NOTIFICATION_EVENT_TYPE)
    (.valueError "message is not a reminder notification"))
  .ofExcept (require (current.all fun m => !(resolution = "retry" && MAX_DELIVERY_ATTEMPTS ≤ m.attempts))
    (.valueError "maximum delivery attempts reached"))
  let message ←
    if resolution = "delivered" then
      store (onOutbox (resolveUncertainDelivered principal messageId (.ofInstant now)))
    else if resolution = "retry" then
      store (onOutbox (resolveUncertainRetry principal messageId (.ofInstant now)))
    else .raise (.valueError "resolution must be delivered or retry")
  mirrorTerminal principal message
  commit
  return message

end DispatchDueReminders

end PersonalAssistant
