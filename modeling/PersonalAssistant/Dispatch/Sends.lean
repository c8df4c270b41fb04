import PersonalAssistant.Dispatch.Accounts
import PersonalAssistant.Dispatch.Schedules

/-!
# Every provider send is fenced

`Ledger` couples the log of a pool with its stores: a message has been sent for as often as it has
attempts, one that waits again was returned or reopened since its last send, and a worker around a call
of the provider holds the number of its own send. Every step keeps the ledger, so the log is legal, and
what the rules of `Legal` give holds of every run.
-/
namespace PersonalAssistant

open Lib InMemoryOutbox InMemoryReminderTransaction ReminderStores Relation

variable {platform : Platform} {s s' : InMemoryOutbox platform} {k : Key}
  {m m' : OutboxMessage platform} {log : List DispatchEvent} {e : DispatchEvent} {x : Key}

/-! ## Dispatch keys -/

theorem attemptKey_injective (messageId : String) : Function.Injective (attemptKey messageId) := by
  intro a b h
  have hlist := congrArg String.toList h
  simp only [attemptKey, String.toList_append, List.append_cancel_left_eq] at hlist
  rw [Nat.toString_eq_repr, Nat.toString_eq_repr, Nat.toList_repr, Nat.toList_repr] at hlist
  have hvalue := congrArg (Nat.ofDigitChars 10 · 0) hlist
  simpa [Nat.ofDigitChars_toDigits] using hvalue

theorem attemptLabel_injective (x : Key) : Function.Injective (attemptLabel x) :=
  attemptKey_injective x.2

theorem idempotencyKey_of_notificationRequest {dispatchKey : String} {request : NotificationRequest}
    (h : notificationRequest m dispatchKey = .ok request) : request.idempotencyKey = dispatchKey := by
  unfold notificationRequest at h
  obtain ⟨_, -, h⟩ := except_bind_eq_ok.mp h
  obtain ⟨_, -, h⟩ := except_bind_eq_ok.mp h
  obtain ⟨channel, -, h⟩ := except_bind_eq_ok.mp h
  obtain ⟨recipient, -, h⟩ := except_bind_eq_ok.mp h
  obtain ⟨body, -, h⟩ := except_bind_eq_ok.mp h
  cases h
  rfl

/-! ## Identifiers of stored messages -/

/-- The index of message identifiers lists exactly the stored messages. -/
def MessageIds (s : InMemoryOutbox platform) : Prop :=
  Indexes s.keyByMessageId s.messagesByKey OutboxMessage.id

theorem OutboxCall.messageIds_run (o : OutboxCall platform) (inv : Inv s) (h : MessageIds s) :
    MessageIds (o.run s).2 := by
  cases hadd : o.isAdd with
  | false =>
    have rewrites := rewrites_run hadd inv
    unfold MessageIds
    rw [rewrites.messageIds]
    exact h.rewrite (rewrites.map fun m m' hid => hid.id)
  | true =>
    cases o with
    | add p event key next id fresh now =>
      rw [run, snd_single]
      rcases add_cases (Prod.eta (InMemoryOutbox.add p event key next id fresh now s)).symm with
        ⟨e, -, hs⟩ | ⟨_, -, -, -, ⟨n, -, -, -, hs⟩ | ⟨n, hnone, -, hfree, -, -, hs⟩⟩
      · rw [hs]
        exact h
      · rw [hs]
        exact h
      · rw [hs]
        exact Indexes.set h (takenByOther_eq_false.mp hfree) fun old hold => by
          cases hnone.symm.trans hold
    | _ => cases hadd

theorem StorePath.messageIds {ok : StoreCall platform → Prop} {u u' : ReminderStores platform}
    (path : StorePath ok u u') (inv : Inv u.outbox) (h : MessageIds u.outbox) : MessageIds u'.outbox :=
  (path.keeps_outbox (P := fun t => Inv t ∧ MessageIds t) (fun o t _ ht =>
    ⟨(o.stepSpec t (o.run t).1 (o.run t).2 ht.1 rfl).1, o.messageIds_run ht.1 ht.2⟩) ⟨inv, h⟩).2

theorem DispatchState.Outcome.messageIds {c c' : DispatchState platform} (out : c.Outcome c')
    (inv : Inv c.stores.outbox) (h : MessageIds c.stores.outbox) : MessageIds c'.stores.outbox := by
  cases out with
  | quiet path => exact path.messageIds inv h
  | claimed fresh path drawn => exact path.messageIds inv h
  | confirmed held path => exact path.messageIds inv h

/-- A reference belongs to one stored message. -/
theorem eq_of_reference (ids : MessageIds s) (inv : Inv s) {j k : Key}
    (hm : s.messagesByKey.get? j = some m) (hm' : s.messagesByKey.get? k = some m')
    (h : m.reference = m'.reference) : j = k := by
  obtain ⟨htenant, hid⟩ := Prod.mk.inj h
  have hj := (inv j m hm).tenant
  have hk := (inv k m' hm').tenant
  obtain ⟨tenant, key⟩ := j
  obtain ⟨tenant', key'⟩ := k
  obtain rfl : tenant = tenant' := hj.symm.trans (htenant.trans hk)
  rw [Indexes.eq_of_attribute ids hm hm' hid]

/-! ## Stored messages and the log -/

/-- A message has one attempt for each of its sends, and one that is open again was returned or reopened
since the last of them. -/
structure Counted (s : InMemoryOutbox platform) (log : List DispatchEvent) : Prop where
  attempts : ∀ k m, s.messagesByKey.get? k = some m → (fences m.reference log).length = m.attempts
  opened : ∀ k m, s.messagesByKey.get? k = some m → m.Open → 0 < m.attempts →
    Freed attemptLabel m.reference m.attempts log
  absent : ∀ x, (∀ k m, s.messagesByKey.get? k = some m → m.reference ≠ x) → fences x log = []

theorem Onwards.reference (h : Onwards m m') : m'.reference = m.reference :=
  DispatchPool.reference_eq h.same

theorem Counted.calm (h : Counted s log) (calm : Calm s s') (ids : MessageIds s') (inv : Inv s') :
    Counted s' log := by
  refine ⟨fun k m' hm' => ?_, fun k m' hm' hopen hpos => ?_, fun x hx => h.absent x fun k m hm hmx => ?_⟩
  · cases hm : s.messagesByKey.get? k with
    | some m =>
      obtain ⟨n, hn, honwards⟩ := calm.kept k m hm
      cases hn.symm.trans hm'
      rw [honwards.reference, honwards.attempts]
      exact h.attempts k m hm
    | none =>
      rw [calm.added k m' hm' hm, h.absent m'.reference]
      · rfl
      · intro j n hn hreference
        obtain ⟨n', hn', honwards⟩ := calm.kept j n hn
        obtain rfl := eq_of_reference ids inv hn' hm' (honwards.reference.trans hreference)
        cases hm.symm.trans hn
  · cases hm : s.messagesByKey.get? k with
    | some m =>
      obtain ⟨n, hn, honwards⟩ := calm.kept k m hm
      cases hn.symm.trans hm'
      rw [honwards.reference, honwards.attempts]
      exact h.opened k m hm (honwards.opened hopen) (honwards.attempts ▸ hpos)
    | none =>
      rw [calm.added k m' hm' hm] at hpos
      exact absurd hpos (lt_irrefl 0)
  · obtain ⟨m', hm', honwards⟩ := calm.kept k m hm
    exact hx k m' hm' (honwards.reference.trans hmx)

/-- What is stored after a message was moved. -/
theorem get?_marked {final : OutboxMessage platform} {j : Key}
    (h : (s.setMessage k final).messagesByKey.get? j = some m) :
    (j = k ∧ m = final) ∨ (j ≠ k ∧ s.messagesByKey.get? j = some m) := by
  rw [messagesByKey_setMessage, Dict.get?_set] at h
  split_ifs at h with hj
  · exact .inl ⟨hj, (Option.some.inj h).symm⟩
  · exact .inr ⟨hj, h⟩

/-- A message is moved without a send. -/
theorem Counted.mark {old final : OutboxMessage platform} (h : Counted s log)
    (hold : s.messagesByKey.get? k = some old) (same : SameIdentity old final)
    (attempts : final.attempts = old.attempts) (hne : ∀ x, FenceEvent.fence? x e = none)
    (opened : 0 < final.attempts → Freed attemptLabel final.reference final.attempts (e :: log)) :
    Counted (s.setMessage k final) (e :: log) := by
  have hreference := DispatchPool.reference_eq same
  refine ⟨fun j n hn => ?_, fun j n hn hopen hpos => ?_, fun x hx => ?_⟩
  · rw [fences_cons (hne _)]
    obtain ⟨rfl, rfl⟩ | ⟨-, hn⟩ := get?_marked hn
    · rw [hreference, attempts]
      exact h.attempts _ old hold
    · exact h.attempts j n hn
  · obtain ⟨rfl, rfl⟩ | ⟨-, hn⟩ := get?_marked hn
    · exact opened hpos
    · exact (h.opened j n hn hopen hpos).cons (hne _)
  · rw [fences_cons (hne _)]
    refine h.absent x fun j n hn hnx => ?_
    by_cases hj : j = k
    · subst hj
      cases hold.symm.trans hn
      exact hx j final (by simp) (hreference.trans hnx)
    · exact hx j n (by simpa [Dict.get?_set_of_ne _ _ hj] using hn) hnx

/-- A send is confirmed. -/
theorem Counted.fence {old : OutboxMessage platform} {now : Instant} (h : Counted s log)
    (ids : MessageIds s) (inv : Inv s) (hold : s.messagesByKey.get? k = some old) :
    Counted (s.setMessage k (sendingCopy now old))
      (.fenced old.reference (old.attempts + 1) :: log) := by
  have hne : ∀ j n, j ≠ k → s.messagesByKey.get? j = some n → old.reference ≠ n.reference :=
    fun j n hj hn hreference => hj (eq_of_reference ids inv hold hn hreference).symm
  refine ⟨fun j n hn => ?_, fun j n hn hopen hpos => ?_, fun x hx => ?_⟩
  · obtain ⟨rfl, rfl⟩ | ⟨hj, hn⟩ := get?_marked hn
    · have hreference : (sendingCopy now old).reference = old.reference := rfl
      rw [fences_fenced, hreference, if_pos rfl, List.length_cons, h.attempts _ old hold]
      rfl
    · rw [fences_fenced, if_neg (hne j n hj hn)]
      exact h.attempts j n hn
  · obtain ⟨rfl, rfl⟩ | ⟨hj, hn⟩ := get?_marked hn
    · simp [OutboxMessage.Open, sendingCopy] at hopen
    · exact (h.opened j n hn hopen hpos).cons (by simp [FenceEvent.fence?, hne j n hj hn])
  · have hxk : old.reference ≠ x := hx k (sendingCopy now old) (by simp)
    rw [fences_fenced, if_neg hxk]
    refine h.absent x fun j n hn => ?_
    by_cases hj : j = k
    · subst hj
      cases hold.symm.trans hn
      exact hxk
    · exact hx j n (by simpa [Dict.get?_set_of_ne _ _ hj] using hn)

namespace DispatchPool

variable {Worker : Type} [DecidableEq Worker] {c c' : DispatchPool platform Worker}
  {config : Worker → DispatchDueReminders} {admits : Block platform Unit → Prop}

/-! ## The ledger -/

/-- A worker in front of the provider holds the key of its own send, which was not handed over yet; one
behind the provider holds a key that was. -/
def PhaseLedger (log : List DispatchEvent) : DispatchPhase platform → Prop
  | .sending principal _ request message _ =>
    request.idempotencyKey = attemptKey message.id message.attempts ∧
      message.tenantId = principal.tenantId ∧ message.attempts ∈ fences message.reference log ∧
      request.idempotencyKey ∉ uses message.reference log
  | .answered principal _ request message _ _ =>
    request.idempotencyKey = attemptKey message.id message.attempts ∧
      message.tenantId = principal.tenantId ∧ request.idempotencyKey ∈ uses message.reference log
  | _ => True

theorem phaseLedger_of_clear {phase : DispatchPhase platform} (h : Clear phase) :
    PhaseLedger log phase := by
  cases phase with
  | sending => exact h.elim
  | answered => exact h.elim
  | _ => trivial

/-- An event that is no use leaves a phase what it is. -/
theorem PhaseLedger.cons {phase : DispatchPhase platform} (h : PhaseLedger log phase)
    (hne : ∀ x, FenceEvent.use? x e = none) : PhaseLedger (e :: log) phase := by
  have huses : ∀ x, uses x (e :: log) = uses x log := fun x => by simp [uses, hne x]
  cases phase with
  | sending =>
    obtain ⟨hkey, htenant, hfence, hunused⟩ := h
    refine ⟨hkey, htenant, ?_, by rwa [huses]⟩
    exact mem_fences.mpr (List.mem_cons_of_mem _ (mem_fences.mp hfence))
  | answered =>
    obtain ⟨hkey, htenant, hused⟩ := h
    exact ⟨hkey, htenant, by rwa [huses]⟩
  | _ => trivial

/-- The message a worker is about to send. -/
def pending? : DispatchPhase platform → Option (OutboxMessage platform)
  | .sending _ _ _ message _ => some message
  | _ => none

structure Ledger (c : DispatchPool platform Worker) : Prop where
  legal : ∀ x, Legal attemptLabel x c.log
  counted : Counted c.state.stores.outbox c.log
  ids : MessageIds c.state.stores.outbox
  phases : ∀ v, PhaseLedger c.log (c.phase v)
  distinct : ∀ v w m n, v ≠ w → pending? (c.phase v) = some m → pending? (c.phase w) = some n →
    m.reference = n.reference → m.attempts ≠ n.attempts

theorem pending?_of_clear {phase : DispatchPhase platform} (h : Clear phase) : pending? phase = none := by
  cases phase with
  | sending => exact h.elim
  | _ => rfl

omit [DecidableEq Worker] in
/-- Workers that did not start a send do not disturb the others. -/
theorem distinct_of_clear {phase phase' : Worker → DispatchPhase platform}
    (h : ∀ v w m n, v ≠ w → pending? (phase v) = some m → pending? (phase w) = some n →
      m.reference = n.reference → m.attempts ≠ n.attempts)
    (phases : ∀ v, phase' v = phase v ∨ pending? (phase' v) = none) (v w : Worker)
    (m n : OutboxMessage platform) (hne : v ≠ w) (hv : pending? (phase' v) = some m)
    (hw : pending? (phase' w) = some n) (hreference : m.reference = n.reference) :
    m.attempts ≠ n.attempts := by
  obtain hv' | hv' := phases v
  · obtain hw' | hw' := phases w
    · exact h v w m n hne (hv' ▸ hv) (hw' ▸ hw) hreference
    · cases hw'.symm.trans hw
  · cases hv'.symm.trans hv

/-- An event of one message that is neither a fence nor a use. -/
theorem legal_cons (h : ∀ x, Legal attemptLabel x log) (allowed : ∀ x, Allowed attemptLabel x log e)
    (x : Key) : Legal attemptLabel x (e :: log) := ⟨allowed x, h x⟩

omit [DecidableEq Worker] in
/-- The message of a send that is under way has the number of a committed one. -/
theorem PhaseLedger.pending {phase : DispatchPhase platform} (h : PhaseLedger log phase)
    (hm : pending? phase = some m) : m.attempts ∈ fences m.reference log := by
  cases phase with
  | sending =>
    cases hm
    exact h.2.2.1
  | _ => cases hm

/-- The number of a new send is past those of the earlier ones, so its key was never handed over. -/
theorem phaseLedger_of_fence {old : OutboxMessage platform} {principal : Principal} {now now' : Instant}
    {rest : List (OutboxMessage platform)} {request : NotificationRequest}
    (legal : Legal attemptLabel old.reference log)
    (count : (fences old.reference log).length = old.attempts)
    (key : request.idempotencyKey = attemptKey old.id (old.attempts + 1))
    (tenant : old.tenantId = principal.tenantId) :
    PhaseLedger (.fenced old.reference (old.attempts + 1) :: log)
      (.sending principal now request (sendingCopy now' old) rest) := by
  have hreference : (sendingCopy now' old).reference = old.reference := rfl
  refine ⟨key, tenant, ?_, fun hused => ?_⟩
  · rw [fences_fenced, hreference, if_pos rfl]
    exact List.mem_cons_self
  · -- a use comes after the fence with its number, which is one of the earlier ones
    have hmem : request.idempotencyKey ∈ uses old.reference log := hused
    obtain ⟨newer, older, hlog⟩ := List.append_of_mem (mem_uses.mp hmem)
    obtain ⟨n, hn, hlabel⟩ := legal.fence_of_use hlog
    have hn' : n ∈ fences old.reference log := mem_fences.mpr (by
      rw [hlog]
      exact List.mem_append_right _ (List.mem_cons_of_mem _ hn))
    have heq := attemptKey_injective old.id (key.symm.trans hlabel)
    have hle := (legal.mem_fences_iff.mp hn').2
    omega

/-- A key that was handed over for one send is not that of another. -/
theorem PhaseLedger.use {phase : DispatchPhase platform} {message : OutboxMessage platform} {key : String}
    (h : PhaseLedger log phase) (hkey : key = attemptKey message.id message.attempts)
    (distinct : ∀ n, pending? phase = some n → message.reference = n.reference →
      message.attempts ≠ n.attempts) : PhaseLedger (.used message.reference key :: log) phase := by
  cases phase with
  | sending principal now request n rest =>
    obtain ⟨hkey', htenant, hfence, hunused⟩ := h
    refine ⟨hkey', htenant, hfence, fun hused => ?_⟩
    rw [uses_used] at hused
    split_ifs at hused with hreference
    · obtain hsame | hused := List.mem_cons.mp hused
      · have hid : message.id = n.id := congrArg Prod.snd hreference
        rw [hkey', hkey, ← hid] at hsame
        exact distinct n rfl hreference (attemptKey_injective _ hsame.symm)
      · exact hunused hused
    · exact hunused hused
  | answered principal now request n result rest =>
    obtain ⟨hkey', htenant, hused⟩ := h
    exact ⟨hkey', htenant, mem_uses.mpr (List.mem_cons_of_mem _ (mem_uses.mp hused))⟩
  | _ => trivial

/-- A new send does not disturb the others when its number is another than theirs. -/
theorem distinct_of_send {phase : Worker → DispatchPhase platform} {w : Worker} {next : DispatchPhase platform}
    (h : ∀ v v' m n, v ≠ v' → pending? (phase v) = some m → pending? (phase v') = some n →
      m.reference = n.reference → m.attempts ≠ n.attempts)
    (new : ∀ v m n, pending? (phase v) = some m → pending? next = some n → m.reference = n.reference →
      m.attempts ≠ n.attempts) (v v' : Worker) (m n : OutboxMessage platform) (hne : v ≠ v')
    (hv : pending? (Function.update phase w next v) = some m)
    (hv' : pending? (Function.update phase w next v') = some n) (hreference : m.reference = n.reference) :
    m.attempts ≠ n.attempts := by
  by_cases hvw : v = w
  · subst hvw
    rw [Function.update_self] at hv
    rw [Function.update_of_ne (Ne.symm hne)] at hv'
    exact (new v' n m hv' hv hreference.symm).symm
  · rw [Function.update_of_ne hvw] at hv
    by_cases hvw' : v' = w
    · subst hvw'
      rw [Function.update_self] at hv'
      exact new v m n hv hv' hreference
    · rw [Function.update_of_ne hvw'] at hv'
      exact h v v' m n hne hv hv' hreference

/-! ### The accounts that move a worker around the provider -/

/-- A send is committed. -/
theorem Ledger.fenced {w : Worker} {principal : Principal} {now now' : Instant}
    {message old : OutboxMessage platform} {rest : List (OutboxMessage platform)}
    {request : NotificationRequest} (h : Ledger c) (inv : Inv c.state.stores.outbox)
    (ids' : MessageIds c'.state.stores.outbox)
    (built : notificationRequest message (attemptIdempotencyKey message) = .ok request)
    (mark : Marked principal message.id c.state.stores c'.state.stores k old (sendingCopy now' old))
    (claimed : old.dispatchStatus = .claimed) (copy : SameIdentity message old)
    (attempts : old.attempts = message.attempts)
    (log : c'.log = .fenced old.reference (old.attempts + 1) :: c.log)
    (phases : c'.phase = Function.update c.phase w
      (.sending principal now request (sendingCopy now' old) rest)) : Ledger c' := by
  have hcount := h.counted.attempts k old mark.get?
  have htenant : old.tenantId = principal.tenantId :=
    (inv k old mark.get?).tenant.trans (find?_eq_some mark.found).2.1
  have hkey : request.idempotencyKey = attemptKey old.id (old.attempts + 1) := by
    rw [idempotencyKey_of_notificationRequest built, attemptIdempotencyKey, copy.id, attempts]
  refine ⟨?_, ?_, ids', fun v => ?_, ?_⟩
  · rw [log]
    refine legal_cons h.legal fun x hx => ?_
    subst hx
    exact ⟨by rw [hcount], fun hpos => h.counted.opened k old mark.get? (.inr claimed) (by omega)⟩
  · rw [log, mark.stored]
    exact h.counted.fence h.ids inv mark.get?
  · rw [log, phases]
    by_cases hv : v = w
    · subst hv
      rw [Function.update_self]
      exact phaseLedger_of_fence (h.legal _) hcount hkey htenant
    · rw [Function.update_of_ne hv]
      exact (h.phases v).cons fun _ => rfl
  · rw [phases]
    refine distinct_of_send h.distinct fun v m n hm hn hreference => ?_
    cases hn
    have hfence := (h.phases v).pending hm
    have hold : m.reference = old.reference := hreference
    have hle := ((h.legal _).mem_fences_iff.mp (hold ▸ hfence)).2
    have hnext : (sendingCopy now' old).attempts = old.attempts + 1 := rfl
    omega

/-- A key is handed to the provider. -/
theorem Ledger.used {w : Worker} {principal : Principal} {now : Instant} {message : OutboxMessage platform}
    {rest : List (OutboxMessage platform)} {request : NotificationRequest}
    {result : Option NotificationResult} (h : Ledger c)
    (sending : c.phase w = .sending principal now request message rest) (state : c'.state = c.state)
    (log : c'.log = .used message.reference request.idempotencyKey :: c.log)
    (phases : c'.phase = Function.update c.phase w (.answered principal now request message result rest)) :
    Ledger c' := by
  have hphase := h.phases w
  rw [sending] at hphase
  obtain ⟨hkey, htenant, hfence, hunused⟩ := hphase
  refine ⟨?_, ?_, state ▸ h.ids, fun v => ?_, ?_⟩
  · rw [log]
    refine legal_cons h.legal fun x hx => ?_
    subst hx
    exact ⟨hunused, message.attempts, hfence, hkey⟩
  · rw [log, state]
    exact ⟨h.counted.attempts, fun k m hm hopen hpos => (h.counted.opened k m hm hopen hpos).cons rfl,
      h.counted.absent⟩
  · rw [log, phases]
    by_cases hv : v = w
    · subst hv
      rw [Function.update_self]
      exact ⟨hkey, htenant, by simp⟩
    · rw [Function.update_of_ne hv]
      exact (h.phases v).use hkey fun n hn hreference =>
        h.distinct w v message n (Ne.symm hv) (by rw [sending]; rfl) hn hreference
  · refine distinct_of_clear h.distinct fun v => ?_
    rw [phases]
    by_cases hv : v = w
    · subst hv
      exact .inr (by rw [Function.update_self]; rfl)
    · exact .inl (Function.update_of_ne hv _ _)

theorem Ledger.account (h : Ledger c) (account : Account c c') (consistent : c.state.Consistent)
    (inv' : Inv c'.state.stores.outbox) (ids' : MessageIds c'.state.stores.outbox)
    (handed : ∀ v, Handed c.state (c.phase v)) : Ledger c' := by
  have inv := consistent.stores.outbox
  cases account with
  | calm calm log phases =>
    refine ⟨log ▸ h.legal, log ▸ h.counted.calm calm ids' inv', ids', fun v => ?_, ?_⟩
    · rw [log]
      exact (phases v).elim (fun hv => hv ▸ h.phases v) phaseLedger_of_clear
    · exact distinct_of_clear h.distinct fun v => (phases v).imp_right pending?_of_clear
  | fenced built mark claimed copy attempts scheduled log phases =>
    exact h.fenced inv ids' built mark claimed copy attempts log phases
  | used sending state log phases => exact h.used sending state log phases
  | @returned w principal now message old final rest request result k token answered mark stored handed'
      sending pending attempts transient more log phases =>
    have hphase := h.phases w
    rw [answered] at hphase
    obtain ⟨hkey, htenant, hused⟩ := hphase
    have hreference : message.reference = old.reference := by
      have hfound := find?_eq_some mark.found
      exact Prod.ext (htenant.trans (hfound.2.1.symm.trans (inv k old hfound.1).tenant.symm))
        hfound.2.2.symm
    have hcurrent := attempts_of_answered consistent handed answered mark.get? stored handed'
    refine ⟨?_, ?_, ids', fun v => ?_, ?_⟩
    · rw [log]
      refine legal_cons h.legal fun x hx => ?_
      subst hx
      exact hreference ▸ hused
    · rw [log, mark.stored]
      refine h.counted.mark mark.get? mark.same attempts (fun _ => rfl) fun _ => .inr ?_
      rw [attempts, reference_eq mark.same, attemptLabel]
      have hlabel : request.idempotencyKey = attemptKey old.reference.2 old.attempts := by
        rw [hkey, hcurrent, ← hreference]
        rfl
      rw [← hlabel]
      simp [sinceFence, FenceEvent.fence?]
    · rw [log]
      refine PhaseLedger.cons ?_ fun _ => rfl
      exact (phases v).elim (fun hv => hv ▸ h.phases v) phaseLedger_of_clear
    · exact distinct_of_clear h.distinct fun v => (phases v).imp_right pending?_of_clear
  | @reopened principal messageId old final k mark uncertain pending attempts more log phases =>
    refine ⟨?_, ?_, ids', fun v => ?_, ?_⟩
    · rw [log]
      exact legal_cons h.legal fun _ => trivial
    · rw [log, mark.stored]
      refine h.counted.mark mark.get? mark.same attempts (fun _ => rfl) fun _ => .inl ?_
      rw [reference_eq mark.same]
      simp [sinceFence, FenceEvent.fence?]
    · rw [log, phases]
      exact (h.phases v).cons fun _ => rfl
    · rw [phases]
      exact h.distinct

/-- Every reachable pool keeps the ledger. -/
theorem Reachable.ledger (h : Reachable config admits c) (writes : ∀ x, admits x → WritesOnly x) :
    Ledger c := by
  induction h with
  | start =>
    refine ⟨fun _ => trivial, ⟨fun k m hm => ?_, fun k m hm => ?_, fun _ _ => rfl⟩, Indexes.empty _,
      fun _ => trivial, fun v w m n _ hv => by cases hv⟩
    · simp [ReminderStores.empty, InMemoryOutbox.empty] at hm
    · simp [ReminderStores.empty, InMemoryOutbox.empty] at hm
  | @step c c' reachable step ih =>
    have consistent := reachable.consistent writes
    have inv := consistent.stores.outbox
    have out := step.outcome writes inv reachable.handed
    exact ih.account (step.account writes inv reachable.handed (reachable.faithful writes)) consistent
      (consistent.outcome out).stores.outbox (out.messageIds inv ih.ids) reachable.handed

/-- In every run, at every interleaving, with workers that stop anywhere: the dispatch keys handed to the
provider for a message are pairwise distinct, each is handed over after the committed send whose number
it carries, the committed sends of a message are numbered 1, 2, 3, …, and between two consecutive ones
an operator's retry was committed, or the request behind the first was handed to the provider and then
rescheduled on its transient result. -/
theorem sends_are_fenced (h : Reachable config (fun x => WritesOnly x) c) (x : Key) :
    (uses x c.log).Nodup ∧
    (∀ newer key older, c.log = newer ++ .used x key :: older →
      ∃ n, .fenced x n ∈ older ∧ key = attemptKey x.2 n) ∧
    (fences x c.log).reverse = List.range' 1 (fences x c.log).length ∧
    ∀ newer n between older,
      c.log = newer ++ .fenced x (n + 1) :: (between ++ .fenced x n :: older) →
      .reopened x ∈ between ∨ ∃ a b d, between =
        a ++ .returned x (attemptKey x.2 n) :: (b ++ .used x (attemptKey x.2 n) :: d) := by
  have legal := (h.ledger fun _ hx => hx).legal x
  exact ⟨legal.nodup_uses, fun newer key older heq => legal.fence_of_use heq, legal.reverse_fences,
    fun newer n between older heq => legal.between (attemptLabel_injective x) heq⟩

open TakeoverSample in
/-- The late send comes last, under a key of its own. -/
theorem sends_are_fenced_takeover :
    uses ("tenant-1", "out-1") pool.log = ["out-1:attempt:1", "out-1:attempt:2"] ∧
      (uses ("tenant-1", "out-1") pool.log).Nodup :=
  ⟨by decide +kernel, (sends_are_fenced reachable ("tenant-1", "out-1")).1⟩

end DispatchPool

end PersonalAssistant
