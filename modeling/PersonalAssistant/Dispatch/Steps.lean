import PersonalAssistant.Dispatch.Workers
import PersonalAssistant.Outbox.Rewrites

/-!
# What a step of the workers does

`Step.outcome` is the complete account of a step: a path of store calls, and what was handed to the
worker. Facts about runs follow from it and from what `OutboxCall.leaves_run` says about one call.
-/
namespace PersonalAssistant

open Lib InMemoryOutbox InMemoryReminderTransaction ReminderStores Relation

variable {platform : Platform} {c c' : DispatchState platform}

/-! ## Calls and the outbox -/

/-- Only outbox calls touch the outbox. -/
theorem StoreCall.outbox_run (call : StoreCall platform) (s : ReminderStores platform) :
    (call.run s).2.outbox = match call with
      | .outbox o => (o.run s.outbox).2
      | _ => s.outbox := by
  cases call <;> simp only [StoreCall.run, snd_discard, onCalendar, onScheduler, onEventStore, onOutbox,
    onStates, Op.zoom_apply, Op.ofExcept_apply]

theorem StorePath.keeps {ok : StoreCall platform → Prop} {P : ReminderStores platform → Prop}
    {s s' : ReminderStores platform} (path : StorePath ok s s')
    (calls : ∀ call t, ok call → P t → P (call.run t).2)
    (states : ∀ t states, P t → P { t with states := states }) (hs : P s) : P s' := by
  induction path with
  | refl => exact hs
  | tail _ step ih =>
    obtain ⟨call, hcall, rfl⟩ | ⟨t, rfl⟩ := step
    · exact calls call _ hcall ih
    · exact states _ t ih

/-- What every allowed outbox call keeps, a path keeps. -/
theorem StorePath.keeps_outbox {ok : StoreCall platform → Prop} {P : InMemoryOutbox platform → Prop}
    {s s' : ReminderStores platform} (path : StorePath ok s s')
    (calls : ∀ o t, ok (.outbox o) → P t → P (o.run t).2) (hs : P s.outbox) : P s'.outbox := by
  refine path.keeps (P := fun s => P s.outbox) (fun call t hcall ht => ?_) (fun _ _ ht => ht) hs
  rw [StoreCall.outbox_run]
  cases call with
  | outbox o => exact calls o _ hcall ht
  | _ => exact ht

/-- Mirroring leaves the outbox alone. -/
theorem outbox_of_mirrors {α : Type} {x : Block platform α}
    (hx : Through (fun call => ∃ p id m, call = StoreCall.mirrorDelivery p id m) x)
    (t : InMemoryReminderTransaction platform) : (x t).2.stores.outbox = t.stores.outbox :=
  hx.keeps (P := fun s => s.outbox = t.stores.outbox) (fun call s hcall hs => by
    obtain ⟨p, id, m, rfl⟩ := hcall
    rw [StoreCall.outbox_run]
    exact hs) t rfl

namespace DispatchDueReminders

/-- Only messages of the batch are handed out. -/
theorem mem_of_mirrorClaimed {principal : Principal} {now : Instant}
    {messages dispatchable prefailed : List (OutboxMessage platform)}
    {t t' : InMemoryReminderTransaction platform}
    (h : mirrorClaimed principal now messages t = (.ok (dispatchable, prefailed), t')) :
    ∀ m ∈ dispatchable, m ∈ messages := by
  induction messages generalizing t t' dispatchable prefailed with
  | nil =>
    cases h
    simp
  | cons message rest ih =>
    obtain ⟨failed, u, -, h⟩ := Op.bind_eq_ok h
    obtain ⟨⟨handed, others⟩, v, hrest, h⟩ := Op.bind_eq_ok h
    have hmem := ih hrest
    cases failed with
    | none =>
      cases h
      grind
    | some failed =>
      cases h
      grind

/-- A message that is handed out carries one of the tokens drawn for its batch. -/
theorem claimToken_of_claim {d : DispatchDueReminders} {principal : Principal} {now : Instant}
    {tokens : Key → Uuid} {dispatchable prefailed : List (OutboxMessage platform)}
    {t t' : InMemoryReminderTransaction platform}
    (h : d.claim principal now tokens t = (.ok (dispatchable, prefailed), t')) :
    ∀ m ∈ dispatchable, ∃ k, m.claimToken = some (tokenText (tokens k)) := by
  obtain ⟨messages, u, hclaim, h⟩ := Op.bind_eq_ok h
  obtain ⟨handed, v, hmirror, h⟩ := Op.bind_eq_ok h
  obtain ⟨_, w, -, h⟩ := Op.bind_eq_ok h
  cases h
  obtain ⟨s', hrun, -⟩ := store_cases hclaim
  obtain ⟨s'', hrun, -⟩ := Op.zoom_cases hrun
  obtain ⟨e, he, -⟩ | ⟨now, owner, done, -, -, -, -, -, hbatch, hr⟩ := claimDue_cases hrun
  · cases he
  · cases hr
    intro m hm
    obtain ⟨e, hmem, rfl⟩ := List.mem_map.mp (mem_of_mirrorClaimed hmirror m hm)
    obtain ⟨old, -, -, hcopy⟩ := hbatch.each e hmem
    unfold claimedCopy at hcopy
    obtain ⟨until_, -, hcopy⟩ := except_bind_eq_ok.mp hcopy
    exact ⟨e.1, (congrArg OutboxMessage.claimToken (Except.ok.inj hcopy)).symm⟩

/-- A confirmed send is the stored copy of the message that was claimed. -/
theorem stored_of_confirmSending {principal : Principal} {message sending : OutboxMessage platform}
    {now : Instant} {t t' : InMemoryReminderTransaction platform}
    (h : confirmSending principal message now t = (.ok sending, t')) (inv : Inv t.stores.outbox) :
    t'.committed = true ∧ ∃ k old token, t.stores.outbox.messagesByKey.get? k = some old ∧
      old.claimToken = some token ∧ message.claimToken = some token ∧
      sending = sendingCopy now old ∧ t'.stores.outbox.messagesByKey.get? k = some sending := by
  obtain ⟨token, u, htoken, h⟩ := Op.bind_eq_ok h
  obtain ⟨marked, v, hmark, h⟩ := Op.bind_eq_ok h
  obtain ⟨_, w, hmirror, h⟩ := Op.bind_eq_ok h
  obtain ⟨_, x, hcommit, h⟩ := Op.bind_eq_ok h
  cases h
  cases commit_eq_ok hcommit
  obtain ⟨hclaim, rfl⟩ : claimTokenOf message = .ok token ∧ t = u := Prod.mk.inj htoken
  obtain ⟨stores, hstores, rfl⟩ := store_cases hmark
  obtain ⟨o, hrun, rfl⟩ := Op.zoom_cases hstores
  have hkept : w.stores.outbox = o := by
    have hmirrors := outbox_of_mirrors (through_mirror (fun p id m => ⟨p, id, m, rfl⟩) principal sending)
      { t with stores := { t.stores with outbox := o } }
    rwa [hmirror] at hmirrors
  refine ⟨rfl, ?_⟩
  rcases Op.ofExcept_bind_cases hrun with ⟨e, -, ho⟩ | ⟨startedAt, ht, hrun⟩
  · cases ho
  obtain ⟨e, he, -⟩ | ⟨k, old, m', -, hfind, htok, hstatus, hvalid, hr, hs⟩ := transition_cases hrun
  · cases he
  · cases hr
    have hold := (find?_eq_some hfind).1
    obtain ⟨rfl, -⟩ := (follows_sendingCopy startedAt).store inv hold hstatus hvalid
    have hat : startedAt = now := by
      rw [DateTime.canonicalUtc_ofInstant] at ht
      exact (Except.ok.inj ht).symm
    subst hat
    refine ⟨k, old, token, hold, htok, (claimTokenOf_eq_ok.mp hclaim).1, rfl, ?_⟩
    show w.stores.outbox.messagesByKey.get? k = _
    rw [hkept, hs, messagesByKey_setMessage, Dict.get?_set_self]

end DispatchDueReminders

/-! ## One step -/

namespace DispatchState

/-- The calls of every transaction but a claim and a confirmation. -/
def Quiet (c : DispatchState platform) : StoreCall platform → Prop
  | .outbox (.claimDue ..) | .outbox (.markSending ..) => False
  | .outbox (.release _ _ token next) => ∃ h ∈ c.claimed, h.message.claimToken = some token ∧
      ∃ t, h.now.addSeconds 30 = .ok t ∧ next = some (.ofInstant t)
  | _ => True

/-- The calls of a claim. -/
def Claims (now : Instant) (tokens : Key → Uuid) : StoreCall platform → Prop
  | .outbox (.claimDue _ t _ _ _ _ drawn) => t = .ofInstant now ∧ drawn = tokens
  | .outbox (.markClaimFailed ..) | .mirrorDelivery .. => True
  | _ => False

/-- The calls of a confirmation. -/
def Confirms (h : ClaimedMessage platform) : StoreCall platform → Prop
  | .outbox (.markSending _ _ token _) => h.message.claimToken = some token
  | .mirrorDelivery .. => True
  | _ => False

/-- What a step leads to. -/
inductive Outcome (c : DispatchState platform) : DispatchState platform → Prop where
  | quiet {s : ReminderStores platform} (path : StorePath c.Quiet c.stores s) :
      Outcome c { c with stores := s }
  | claimed {now : Instant} {tokens : Key → Uuid} {s : ReminderStores platform}
      {new : List (ClaimedMessage platform)} (fresh : c.Fresh tokens)
      (path : StorePath (Claims now tokens) c.stores s)
      (drawn : ∀ h ∈ new, h.now = now ∧ ∃ k, h.message.claimToken = some (tokenText (tokens k))) :
      Outcome c { c with stores := s, claimed := c.claimed ++ new }
  | confirmed {h : ClaimedMessage platform} {s : ReminderStores platform} {k : Key} {now : Instant}
      {old : OutboxMessage platform} {token : String} (held : h ∈ c.claimed)
      (path : StorePath (Confirms h) c.stores s) (trusted : h.principal.trusted = true)
      (before : c.stores.outbox.messagesByKey.get? k = some old)
      (stored : old.claimToken = some token) (handed : h.message.claimToken = some token)
      (after : s.outbox.messagesByKey.get? k = some (sendingCopy now old)) :
      Outcome c { c with stores := s, sending := c.sending ++ [⟨h.principal, sendingCopy now old⟩] }

theorem outcome_after {principal : Principal} {α : Type} {x : Block platform α}
    (hx : Through c.Quiet x) : c.Outcome (c.after principal x) := .quiet (.of_through hx principal _)

theorem outcome_afterClaim {d : DispatchDueReminders} {principal : Principal} {now : Instant}
    {tokens : Key → Uuid} (fresh : c.Fresh tokens) :
    c.Outcome (c.afterClaim d principal now tokens) := by
  have hx : Through (Claims now tokens : StoreCall platform → Prop) (d.claim principal now tokens) :=
    DispatchDueReminders.through_claim (fun _ _ _ => trivial) ⟨rfl, rfl⟩ fun _ _ => trivial
  have path := StorePath.of_through hx principal c.stores
  unfold afterClaim
  rcases hb : begin_ principal (d.claim principal now tokens) c.stores with ⟨_ | ⟨handed, failed⟩, s⟩
  · rw [hb] at path
    have hempty : c.Outcome { c with stores := s, claimed := c.claimed ++ [] } :=
      .claimed fresh path (by simp)
    rwa [List.append_nil] at hempty
  · rw [hb] at path
    refine .claimed fresh path fun h hh => ?_
    obtain ⟨m, hm, rfl⟩ := List.mem_map.mp hh
    obtain ⟨e, he, -⟩ | ⟨a, t, -, hbody, ha, -⟩ := begin_cases hx.forward hb
    · cases he
    · cases ha
      exact ⟨rfl, DispatchDueReminders.claimToken_of_claim hbody m hm⟩

theorem outcome_afterConfirm {h : ClaimedMessage platform} (held : h ∈ c.claimed) (now : Instant)
    (inv : Inv c.stores.outbox) : c.Outcome (c.afterConfirm h now) := by
  have hx : Through (Confirms h)
      (DispatchDueReminders.confirmSending h.principal h.message now) :=
    DispatchDueReminders.through_confirmSending (fun _ _ _ => trivial) fun token htoken => htoken
  have path := StorePath.of_through hx h.principal c.stores
  unfold afterConfirm
  rcases hb : begin_ h.principal (DispatchDueReminders.confirmSending h.principal h.message now)
    c.stores with ⟨e | sending, s⟩
  · obtain ⟨-, -, rfl⟩ | ⟨a, -, -, -, ha, -⟩ := begin_cases hx.forward hb
    · exact .quiet .refl
    · cases ha
  · rw [hb] at path
    obtain ⟨e, he, -⟩ | ⟨a, t, trusted, hbody, ha, hs⟩ := begin_cases hx.forward hb
    · cases he
    · cases ha
      obtain ⟨hcommitted, k, old, token, hold, hstored, hhanded, rfl, hafter⟩ :=
        DispatchDueReminders.stored_of_confirmSending hbody inv
      rw [if_pos hcommitted] at hs
      subst hs
      exact .confirmed held path trusted hold hstored hhanded hafter

/-- The complete account of a step. -/
theorem Step.outcome (step : Step c c') (inv : Inv c.stores.outbox) : c.Outcome c' := by
  cases step with
  | sweep d principal now =>
    exact outcome_after (DispatchDueReminders.through_sweepExpiredSending (fun _ _ _ => trivial)
      trivial)
  | claim d principal now tokens fresh => exact outcome_afterClaim fresh
  | release h held =>
    exact outcome_after (DispatchDueReminders.through_releaseBeforeIo (fun _ _ _ => trivial)
      fun token next htoken hnext => ⟨h, held, htoken, next, hnext, rfl⟩)
  | malformed h held now =>
    exact outcome_after (DispatchDueReminders.through_recordMalformed (fun _ _ _ => trivial)
      fun _ => trivial)
  | confirm h held now => exact outcome_afterConfirm held now inv
  | unknown h held now =>
    exact outcome_after (DispatchDueReminders.through_recordUnknown (fun _ _ _ => trivial)
      fun _ => trivial)
  | record h held result now =>
    exact outcome_after (DispatchDueReminders.through_recordResult (fun _ _ _ => trivial)
      fun call hcall => by cases call with
        | outbox o => cases o <;> trivial
        | _ => trivial)
  | resolve principal messageId resolution now =>
    exact outcome_after (DispatchDueReminders.through_resolveUncertain (fun _ _ _ => trivial)
      fun call hcall => by cases call with
        | outbox o => cases o <;> trivial
        | _ => trivial)
  | request run env principal =>
    exact outcome_after (ApprovedRun.through_block.mono fun call hcall => by cases call with
      | outbox o => cases o <;> trivial
      | _ => trivial)
  | elsewhere states => exact .quiet (.single (.inr ⟨states, rfl⟩))

end DispatchState

end PersonalAssistant
