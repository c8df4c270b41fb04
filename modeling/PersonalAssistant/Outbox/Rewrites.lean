import PersonalAssistant.Outbox.Machine

/-!
# What a call does to one stored message

`Machine` gives the lines a message may move along. Here the call is known as well: it leaves the
message alone or rewrites it in the one way `OutboxCall.Rewrites` lists for it.
-/
namespace PersonalAssistant

open Lib InMemoryOutbox

variable {platform : Platform} {s s' : InMemoryOutbox platform} {k : Key}
  {m m' : OutboxMessage platform}

namespace OutboxCall

/-- How a call may rewrite the message `m` stored under `k`. -/
def Rewrites (k : Key) (m m' : OutboxMessage platform) : OutboxCall platform → Prop
  | add .. => False
  | claimDue principal now _ _ lease type tokens =>
    ∃ t owner, now.canonicalUtc "now" = .ok t ∧ claimable principal t type k m = true ∧
      claimedCopy owner t lease tokens k m = .ok m'
  | markSending _ _ token _ =>
    m.claimToken = some token ∧ m.dispatchStatus = .claimed ∧ ∃ t, m' = sendingCopy t m
  | markClaimFailed _ _ _ error => m.dispatchStatus = .claimed ∧ m' = errorCopy .failed error m
  | release _ _ token next =>
    m.claimToken = some token ∧ m.dispatchStatus = .claimed ∧
      ∃ t, canonicalOption next "next_attempt_at" = .ok t ∧ m' = releasedCopy t m
  | markPublished .. | markFailed .. | markUncertain .. | reschedule .. | sweepExpiredSending .. =>
    m.dispatchStatus = .sending ∧ m'.claimToken = none
  | resolveUncertainDelivered .. | resolveUncertainRetry .. =>
    m.dispatchStatus = .uncertain ∧ m'.claimToken = m.claimToken

/-- The message under `k` is the one it was, or `c` rewrote it. -/
def Leaves (c : OutboxCall platform) (k : Key) (m : OutboxMessage platform)
    (s' : InMemoryOutbox platform) : Prop :=
  s'.messagesByKey.get? k = some m ∨ ∃ m', s'.messagesByKey.get? k = some m' ∧ c.Rewrites k m m'

theorem leaves_setMessage {c : OutboxCall platform} {j : Key} (hm : s.messagesByKey.get? k = some m)
    (hc : j = k → c.Rewrites k m m') : c.Leaves k m (s.setMessage j m') := by
  by_cases hj : j = k
  · subst hj
    exact .inr ⟨m', by simp, hc rfl⟩
  · exact .inl (by rw [messagesByKey_setMessage, Dict.get?_set_of_ne _ _ (Ne.symm hj), hm])

theorem leaves_transition {c : OutboxCall platform} {principal : Principal} {id token : String}
    {expected : DeliveryStatus} {updates : OutboxMessage platform → OutboxMessage platform}
    (follows : Follows expected updates) (inv : Inv s) (hm : s.messagesByKey.get? k = some m)
    (hc : m.claimToken = some token → m.dispatchStatus = expected → c.Rewrites k m (updates m)) :
    c.Leaves k m (transition principal id token expected updates s).2 := by
  rcases transition_cases (Prod.eta (transition principal id token expected updates s)).symm with
    ⟨e, -, hs⟩ | ⟨j, n, n', -, hfind, htoken, hstatus, hvalid, -, hs⟩
  · rw [hs]
    exact .inl hm
  · have hn := (find?_eq_some hfind).1
    obtain ⟨rfl, -⟩ := follows.store inv hn hstatus hvalid
    rw [hs]
    refine leaves_setMessage hm fun hj => ?_
    subst hj
    cases hn.symm.trans hm
    exact hc htoken hstatus

theorem leaves_operatorTransition {c : OutboxCall platform} {principal : Principal} {id : String}
    {updates : OutboxMessage platform → OutboxMessage platform} (follows : Follows .uncertain updates)
    (inv : Inv s) (hm : s.messagesByKey.get? k = some m)
    (hc : m.dispatchStatus = .uncertain → c.Rewrites k m (updates m)) :
    c.Leaves k m (operatorTransition principal id updates s).2 := by
  rcases operatorTransition_cases (Prod.eta (operatorTransition principal id updates s)).symm with
    ⟨e, -, hs⟩ | ⟨j, n, n', -, hfind, hstatus, hvalid, -, hs⟩
  · rw [hs]
    exact .inl hm
  · have hn := (find?_eq_some hfind).1
    obtain ⟨rfl, -⟩ := follows.store inv hn hstatus hvalid
    rw [hs]
    refine leaves_setMessage hm fun hj => ?_
    subst hj
    cases hn.symm.trans hm
    exact hc hstatus

theorem snd_single {σ : Type} (x : Op σ PyError (OutboxMessage platform)) (s : σ) :
    (single x s).2 = (x s).2 := Op.bind_pure_snd x (fun m => [m]) s

/-- A check in front of a method leaves what the method leaves. -/
theorem leaves_check {α β : Type} {c : OutboxCall platform} {x : Except PyError β}
    {f : β → Method platform α} (hm : s.messagesByKey.get? k = some m)
    (hf : ∀ b, x = .ok b → c.Leaves k m (f b s).2) : c.Leaves k m ((Op.ofExcept x >>= f) s).2 := by
  cases x with
  | error e => exact .inl hm
  | ok b => exact hf b rfl

/-- A stored message stays as it is or is rewritten as the call says. -/
theorem leaves_run (c : OutboxCall platform) (inv : Inv s) (hm : s.messagesByKey.get? k = some m) :
    c.Leaves k m (c.run s).2 := by
  cases c with
  | add p event key next id fresh now =>
    rw [run, snd_single]
    rcases add_cases (Prod.eta (InMemoryOutbox.add p event key next id fresh now s)).symm with
      ⟨e, -, hs⟩ | ⟨_, -, -, -, ⟨n, -, -, -, hs⟩ | ⟨n, hnone, -, -, -, -, hs⟩⟩
    · exact .inl (by rw [hs, hm])
    · exact .inl (by rw [hs, hm])
    · have hne : k ≠ (p.tenantId, key) := by
        rintro rfl
        simp [hm] at hnone
      exact .inl (by rw [hs]; exact (Dict.get?_set_of_ne _ _ hne).trans hm)
  | claimDue p now limit owner lease type tokens =>
    rw [run]
    rcases claimDue_cases (Prod.eta (InMemoryOutbox.claimDue p now limit owner lease type tokens s)).symm
      with ⟨e, -, hs⟩ | ⟨t, o, done, -, ht, -, -, -, hbatch, -⟩
    · exact .inl (by rw [hs, hm])
    · rcases hbatch.get? k with h | ⟨n, n', hn, hd, hu, hn'⟩
      · exact .inl (h.trans hm)
      · cases hn.symm.trans hm
        exact .inr ⟨n', hn', t, o, ht, hd, hu⟩
  | markSending p id token startedAt =>
    rw [run, snd_single]
    exact leaves_check hm fun t _ => leaves_transition (follows_sendingCopy t) inv hm
      fun htoken hstatus => ⟨htoken, hstatus, t, rfl⟩
  | markClaimFailed p id token error =>
    rw [run, snd_single]
    exact leaves_transition (follows_errorCopy (by trivial) (by decide) error) inv hm
      fun _ hstatus => ⟨hstatus, rfl⟩
  | markPublished p id token publishedAt clock =>
    rw [run, snd_single]
    exact leaves_check hm fun t _ => leaves_transition (follows_publishedCopy t) inv hm
      fun _ hstatus => ⟨hstatus, rfl⟩
  | markFailed p id token error =>
    rw [run, snd_single]
    exact leaves_transition (follows_errorCopy (by trivial) (by decide) error) inv hm
      fun _ hstatus => ⟨hstatus, rfl⟩
  | markUncertain p id token error =>
    rw [run, snd_single]
    exact leaves_transition (follows_errorCopy (by trivial) (by decide) error) inv hm
      fun _ hstatus => ⟨hstatus, rfl⟩
  | release p id token next =>
    rw [run, snd_single]
    exact leaves_check hm fun t ht => leaves_transition (follows_releasedCopy t) inv hm
      fun htoken hstatus => ⟨htoken, hstatus, t, ht, rfl⟩
  | reschedule p id token next error =>
    rw [run, snd_single]
    exact leaves_check hm fun t _ => leaves_transition (follows_rescheduledCopy t error) inv hm
      fun _ hstatus => ⟨hstatus, rfl⟩
  | sweepExpiredSending p now error limit type =>
    rw [run]
    rcases sweepExpiredSending_cases
      (Prod.eta (InMemoryOutbox.sweepExpiredSending p now error limit type s)).symm
      with ⟨e, -, hs⟩ | ⟨t, done, -, -, -, hbatch, -⟩
    · exact .inl (by rw [hs, hm])
    · rcases hbatch.get? k with h | ⟨n, n', hn, hd, hu, hn'⟩
      · exact .inl (h.trans hm)
      · cases hn.symm.trans hm
        obtain ⟨rfl, -⟩ := (inv k m hm).of_validate (n := errorCopy .uncertain error m) rfl rfl rfl
          (.inl rfl) (.inl rfl) hu
        have hsending : m.dispatchStatus = .sending := by
          simp only [sweepable, Bool.and_eq_true, decide_eq_true_eq] at hd
          exact hd.1.2
        exact .inr ⟨_, hn', hsending, rfl⟩
  | resolveUncertainDelivered p id publishedAt =>
    rw [run, snd_single]
    exact leaves_check hm fun t _ => leaves_operatorTransition (follows_deliveredCopy t) inv hm
      fun hstatus => ⟨hstatus, rfl⟩
  | resolveUncertainRetry p id next =>
    rw [run, snd_single]
    exact leaves_check hm fun t _ => leaves_operatorTransition (follows_retryCopy t) inv hm
      fun hstatus => ⟨hstatus, rfl⟩

/-- A message that was not stored before the call is pending and unclaimed. -/
theorem added_run (c : OutboxCall platform) (inv : Inv s) (hnone : s.messagesByKey.get? k = none)
    (hm : (c.run s).2.messagesByKey.get? k = some m') :
    m'.dispatchStatus = .pending ∧ m'.claimToken = none := by
  obtain ⟨hinv, changes, -⟩ := c.stepSpec s (c.run s).1 (c.run s).2 inv rfl
  have hpending := (changes.added k m' hm hnone).1
  have hmeta := (hinv k m' hm).metadata
  simp only [OutboxMessage.StateMetadata, OutboxMessage.requireStateMetadata, hpending] at hmeta
  refine ⟨hpending, ?_⟩
  split_ifs at hmeta
  simp_all [OutboxMessage.retainsClaim]

end OutboxCall

end PersonalAssistant
