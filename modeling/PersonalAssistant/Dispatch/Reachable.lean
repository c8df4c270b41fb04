import PersonalAssistant.Dispatch.Steps
import PersonalAssistant.Outbox.Indexes

/-!
# Reachable configurations

Stored messages and jobs stay sound, no claim token is stored twice, and a confirmed send whose token
is still stored is the stored send itself.
-/
namespace PersonalAssistant

open Lib InMemoryOutbox InMemoryReminderTransaction ReminderStores Relation

variable {platform : Platform} {c c' : DispatchState platform}

theorem tokenText_injective : Function.Injective tokenText := by
  intro u v h
  apply Uuid.hex_injective
  apply String.toList_inj.mp
  have hlist := congrArg String.toList h
  simpa [tokenText, String.toList_append] using hlist

/-! ## Jobs -/

/-- Every stored job has passed its field checks. -/
def JobsValid (platform : Platform) (s : ReminderScheduler) : Prop :=
  ∀ k job, s.jobsByKey.get? k = some job → job.Valid platform

theorem JobsValid.setJob {s : ReminderScheduler} (h : JobsValid platform s) {k : Key}
    {job : ScheduledReminder} (hjob : job.Valid platform) : JobsValid platform (s.setJob k job) := by
  intro j other hother
  rw [ReminderScheduler.jobsByKey_setJob, Dict.get?_set] at hother
  split_ifs at hother
  · cases hother
    exact hjob
  · exact h j other hother

/-- Only scheduler calls touch the scheduler. -/
theorem StoreCall.scheduler_run (call : StoreCall platform) (s : ReminderStores platform) :
    (call.run s).2.scheduler = match call with
      | .scheduleBeforeEvent p request fresh =>
        (ReminderScheduler.scheduleBeforeEvent platform p request fresh s.scheduler).2
      | .mirrorDelivery p id message => (ReminderScheduler.mirrorDelivery p id message s.scheduler).2
      | .markSent p id clock => (ReminderScheduler.markSent p id clock s.scheduler).2
      | _ => s.scheduler := by
  cases call <;> simp only [StoreCall.run, snd_discard, onCalendar, onScheduler, onEventStore, onOutbox,
    onStates, Op.zoom_apply, Op.ofExcept_apply]

theorem StoreCall.jobsValid_run (call : StoreCall platform) {s : ReminderStores platform}
    (h : JobsValid platform s.scheduler) : JobsValid platform (call.run s).2.scheduler := by
  rw [StoreCall.scheduler_run]
  cases call with
  | scheduleBeforeEvent p request fresh =>
    dsimp only
    obtain ⟨e, -, hs⟩ | ⟨notifyAt, job, -, -, hvalid, ⟨_, -, -, -, hs⟩ | ⟨-, -, -, hs⟩⟩ :=
      ReminderScheduler.scheduleBeforeEvent_cases
        (Prod.eta (ReminderScheduler.scheduleBeforeEvent platform p request fresh s.scheduler)).symm
    · rwa [hs]
    · rwa [hs]
    · obtain ⟨hjob, rfl⟩ := ScheduledReminder.modelValidate_eq_ok hvalid
      rw [hs]
      exact h.setJob ⟨hjob.timezone, hjob.sourceEventId, hjob.payloadFingerprint⟩
  | mirrorDelivery p id message =>
    dsimp only
    obtain ⟨e, -, hs⟩ | ⟨k, job, -, -, -, -, hjob, -, hs⟩ := ReminderScheduler.mirrorDelivery_cases
      (Prod.eta (ReminderScheduler.mirrorDelivery p id message s.scheduler)).symm
    · rwa [hs]
    · rw [hs]
      exact h.setJob ⟨hjob.timezone, hjob.sourceEventId, hjob.payloadFingerprint⟩
  | markSent p id clock =>
    dsimp only
    obtain ⟨e, -, hs⟩ | ⟨k, job, hfind, hs⟩ := ReminderScheduler.markSent_cases
      (Prod.eta (ReminderScheduler.markSent p id clock s.scheduler)).symm
    · rwa [hs]
    · have hjob := h k job (ReminderScheduler.find?_eq_some hfind).1
      rw [hs]
      exact h.setJob ⟨hjob.timezone, hjob.sourceEventId, hjob.payloadFingerprint⟩
  | _ => exact h

/-! ## Tokens -/

/-- The token a call draws for `k`. -/
def OutboxCall.Draws (k : Key) (token : String) : OutboxCall platform → Prop
  | .claimDue _ _ _ _ _ _ tokens => token = tokenText (tokens k)
  | _ => False

/-- Every token that is stored was drawn now, or was stored before, and in a send only if nothing
happened to it since. -/
def TokensFrom (drawn : Key → String → Prop) (s s' : InMemoryOutbox platform) : Prop :=
  ∀ k m' token, s'.messagesByKey.get? k = some m' → m'.claimToken = some token →
    drawn k token ∨ ∃ m, s.messagesByKey.get? k = some m ∧ m.claimToken = some token ∧
      (m' = m ∨ m.dispatchStatus ≠ .sending)

theorem TokensFrom.refl (drawn : Key → String → Prop) (s : InMemoryOutbox platform) :
    TokensFrom drawn s s := fun _ m _ hm htoken => .inr ⟨m, hm, htoken, .inl rfl⟩

theorem TokensFrom.trans {drawn : Key → String → Prop} {s t u : InMemoryOutbox platform}
    (h : TokensFrom drawn s t) (h' : TokensFrom drawn t u) : TokensFrom drawn s u := by
  intro k m'' token hm'' htoken''
  obtain hdrawn | ⟨m', hm', htoken', heq'⟩ := h' k m'' token hm'' htoken''
  · exact .inl hdrawn
  · obtain hdrawn | ⟨m, hm, htoken, heq⟩ := h k m' token hm' htoken'
    · exact .inl hdrawn
    · exact .inr ⟨m, hm, htoken, by grind⟩

theorem TokensFrom.run {drawn : Key → String → Prop} {s : InMemoryOutbox platform}
    (o : OutboxCall platform) (inv : Inv s) (hdrawn : ∀ k token, o.Draws k token → drawn k token) :
    TokensFrom drawn s (o.run s).2 := by
  intro k m' token hm' htoken
  cases hm : s.messagesByKey.get? k with
  | none =>
    have hnone := (o.added_run inv hm hm').2
    rw [hnone] at htoken
    cases htoken
  | some m =>
    obtain hsame | ⟨n, hn, hrewrites⟩ := o.leaves_run inv hm
    · cases hsame.symm.trans hm'
      exact .inr ⟨m', rfl, htoken, .inl rfl⟩
    · cases hn.symm.trans hm'
      cases o with
      | add => exact hrewrites.elim
      | claimDue p now limit owner lease type tokens =>
        obtain ⟨t, o, -, -, hcopy⟩ := hrewrites
        obtain ⟨until_, -, hcopy⟩ := except_bind_eq_ok.mp hcopy
        have hdraw := (congrArg OutboxMessage.claimToken (Except.ok.inj hcopy)).trans htoken
        exact .inl (hdrawn k token (Option.some.inj hdraw).symm)
      | markSending p id held startedAt =>
        obtain ⟨-, hclaimed, t, rfl⟩ := hrewrites
        exact .inr ⟨m, rfl, htoken, .inr (by simp [hclaimed])⟩
      | markClaimFailed =>
        obtain ⟨-, rfl⟩ := hrewrites
        cases htoken
      | release =>
        obtain ⟨-, -, t, -, rfl⟩ := hrewrites
        cases htoken
      | resolveUncertainDelivered =>
        exact .inr ⟨m, rfl, hrewrites.2.symm.trans htoken, .inr (by simp [hrewrites.1])⟩
      | resolveUncertainRetry =>
        exact .inr ⟨m, rfl, hrewrites.2.symm.trans htoken, .inr (by simp [hrewrites.1])⟩
      | markPublished => cases hrewrites.2.symm.trans htoken
      | markFailed => cases hrewrites.2.symm.trans htoken
      | markUncertain => cases hrewrites.2.symm.trans htoken
      | reschedule => cases hrewrites.2.symm.trans htoken
      | sweepExpiredSending => cases hrewrites.2.symm.trans htoken

/-! ## The invariant -/

/-- Stores as the methods leave them. -/
structure Lawful (s : ReminderStores platform) : Prop where
  outbox : Inv s.outbox
  jobs : JobsValid platform s.scheduler
  tokens : ∀ j k m n token, s.outbox.messagesByKey.get? j = some m →
    s.outbox.messagesByKey.get? k = some n → m.claimToken = some token → n.claimToken = some token →
    j = k

theorem Lawful.empty : Lawful (.empty : ReminderStores platform) where
  outbox := InMemoryOutbox.Reachable.empty.inv
  jobs k job h := by simp [ReminderStores.empty, ReminderScheduler.empty] at h
  tokens j k m n token h := by simp [ReminderStores.empty, InMemoryOutbox.empty] at h

/-- A path keeps the stores sound, and its tokens are stored or drawn ones. -/
theorem StorePath.sound {ok : StoreCall platform → Prop} {s s' : ReminderStores platform}
    (path : StorePath ok s s') (drawn : Key → String → Prop) (h : Lawful s)
    (hdrawn : ∀ o, ok (.outbox o) → ∀ k token, o.Draws k token → drawn k token) :
    Inv s'.outbox ∧ JobsValid platform s'.scheduler ∧ TokensFrom drawn s.outbox s'.outbox := by
  obtain ⟨hinv, htokens⟩ := path.keeps_outbox
    (P := fun t => Inv t ∧ TokensFrom drawn s.outbox t)
    (fun o t ho ht => ⟨(o.stepSpec t (o.run t).1 (o.run t).2 ht.1 rfl).1,
      ht.2.trans (.run o ht.1 (hdrawn o ho))⟩) ⟨h.outbox, .refl _ _⟩
  exact ⟨hinv, path.keeps (P := fun t => JobsValid platform t.scheduler)
    (fun call t _ ht => call.jobsValid_run ht) (fun _ _ ht => ht) h.jobs, htokens⟩

namespace DispatchState

/-- A confirmed send, and what is stored under its token. -/
structure Sent (c : DispatchState platform) (h : SendingMessage platform) : Prop where
  trusted : h.principal.trusted = true
  attempts : 0 < h.message.attempts
  token : ∃ token, h.message.claimToken = some token ∧
    (∃ g ∈ c.claimed, g.message.claimToken = some token) ∧
    ∀ k m, c.stores.outbox.messagesByKey.get? k = some m → m.claimToken = some token →
      m.dispatchStatus = .sending ∧ m.attempts = h.message.attempts

structure Consistent (c : DispatchState platform) : Prop where
  stores : Lawful c.stores
  sending : ∀ h ∈ c.sending, c.Sent h

/-- Without a new token the stores stay lawful. -/
theorem lawful_of_tokensFrom {s s' : ReminderStores platform} (h : Lawful s)
    (sound : Inv s'.outbox ∧ JobsValid platform s'.scheduler ∧
      TokensFrom (fun _ _ => False) s.outbox s'.outbox) : Lawful s' := by
  refine ⟨sound.1, sound.2.1, fun j k m n token hm hn hmt hnt => ?_⟩
  obtain h' | ⟨m₀, hm₀, hmt₀, -⟩ := sound.2.2 j m token hm hmt
  · exact h'.elim
  · obtain h' | ⟨n₀, hn₀, hnt₀, -⟩ := sound.2.2 k n token hn hnt
    · exact h'.elim
    · exact h.tokens j k m₀ n₀ token hm₀ hn₀ hmt₀ hnt₀

/-- A send keeps its account when its token is not drawn again. -/
theorem Sent.path {h : SendingMessage platform} {s : ReminderStores platform}
    {claimed : List (ClaimedMessage platform)} {sending : List (SendingMessage platform)}
    {drawn : Key → String → Prop} (sent : c.Sent h) (more : ∀ g ∈ c.claimed, g ∈ claimed)
    (htokens : TokensFrom drawn c.stores.outbox s.outbox)
    (hdrawn : ∀ k token, drawn k token → ∀ g ∈ c.claimed, g.message.claimToken ≠ some token) :
    (DispatchState.mk s claimed sending).Sent h := by
  obtain ⟨token, htoken, ⟨g, hg, hgt⟩, hstored⟩ := sent.token
  refine ⟨sent.trusted, sent.attempts, token, htoken, ⟨g, more g hg, hgt⟩, fun k m hm hmt => ?_⟩
  obtain hdraw | ⟨m₀, hm₀, hmt₀, heq⟩ := htokens k m token hm hmt
  · exact absurd hgt (hdrawn k token hdraw g hg)
  · have hsending := hstored k m₀ hm₀ hmt₀
    obtain rfl | hne := heq
    · exact hsending
    · exact absurd hsending.1 hne

theorem Consistent.outcome (h : c.Consistent) (out : c.Outcome c') : c'.Consistent := by
  cases out with
  | quiet path =>
    have sound := path.sound (fun _ _ => False) h.stores fun o ho k token hdraw => by
      cases o with
      | claimDue => exact ho
      | _ => exact hdraw
    exact ⟨lawful_of_tokensFrom h.stores sound,
      fun g hg => (h.sending g hg).path (fun _ hg' => hg') sound.2.2 fun _ _ hf => hf.elim⟩
  | @claimed now tokens s new fresh path drawn =>
    have sound := path.sound (fun k token => token = tokenText (tokens k)) h.stores
      fun o ho k token hdraw => by
        cases o with
        | claimDue => exact ho.2 ▸ hdraw
        | _ => exact hdraw.elim
    have before : ∀ k, s.outbox.messagesByKey.get? k ≠ none →
        c.stores.outbox.messagesByKey.get? k ≠ none := by
      refine path.keeps_outbox (P := fun t => ∀ k, t.messagesByKey.get? k ≠ none →
        c.stores.outbox.messagesByKey.get? k ≠ none) (fun o t ho ht k hk => ht k fun hnone => hk ?_)
        fun k hk => hk
      have hframe : o.isAdd = false := by
        cases o with
        | add => exact ho.elim
        | _ => rfl
      exact (OutboxCall.frame_run hframe t).absent k hnone
    refine ⟨⟨sound.1, sound.2.1, fun j k m n token hm hn hmt hnt => ?_⟩,
      fun g hg => (h.sending g hg).path (fun _ hg' => by simp [hg']) sound.2.2 ?_⟩
    · obtain hj | ⟨m₀, hm₀, hmt₀, -⟩ := sound.2.2 j m token hm hmt
      · obtain hk | ⟨n₀, hn₀, hnt₀, -⟩ := sound.2.2 k n token hn hnt
        · exact fresh.distinct j k (before j (by simp [hm])) (before k (by simp [hn]))
            (tokenText_injective (hj.symm.trans hk))
        · exact absurd (hj ▸ hnt₀) (fresh.unstored j k n₀ hn₀)
      · obtain hk | ⟨n₀, hn₀, hnt₀, -⟩ := sound.2.2 k n token hn hnt
        · exact absurd (hk ▸ hmt₀) (fresh.unstored k j m₀ hm₀)
        · exact h.stores.tokens j k m₀ n₀ token hm₀ hn₀ hmt₀ hnt₀
    · rintro k token rfl g' hg'
      exact fresh.unused k g' hg'
  | @confirmed g s k now old token held path trusted before stored handed after =>
    have sound := path.sound (fun _ _ => False) h.stores fun o ho k token hdraw => by
      cases o with
      | claimDue => exact ho
      | _ => exact hdraw
    have lawful := lawful_of_tokensFrom h.stores sound
    refine ⟨lawful, fun g' hg' => ?_⟩
    obtain hold | hnew := List.mem_append.mp hg'
    · exact (h.sending g' hold).path (fun _ h' => h') sound.2.2 fun _ _ hf => hf.elim
    · cases List.mem_singleton.mp hnew
      refine ⟨trusted, Nat.succ_pos _, token, stored, ⟨g, held, handed⟩, fun j m hm hmt => ?_⟩
      cases lawful.tokens j k m (sendingCopy now old) token hm after hmt stored
      cases hm.symm.trans after
      exact ⟨rfl, rfl⟩

/-- Configurations that workers reach from lawful stores, with nothing handed out yet. -/
inductive Reachable : DispatchState platform → Prop where
  | start {s : ReminderStores platform} (lawful : Lawful s) : Reachable ⟨s, [], []⟩
  | step {c c' : DispatchState platform} : Reachable c → Step c c' → Reachable c'

theorem Reachable.consistent (h : Reachable c) : c.Consistent := by
  induction h with
  | start lawful => exact ⟨lawful, by simp⟩
  | step _ step ih => exact ih.outcome (step.outcome ih.stores.outbox)

end DispatchState

end PersonalAssistant
