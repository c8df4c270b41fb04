import PersonalAssistant.Outbox.Indexes
import PersonalAssistant.Outbox.Rewrites

/-!
# What a call answers

A call on the outbox returns the messages it changed, as they are stored afterwards, and they all belong
to the tenant of its principal.
-/
namespace PersonalAssistant

open Lib InMemoryOutbox

variable {platform : Platform} {s s' : InMemoryOutbox platform} {principal : Principal}
  {m m' : OutboxMessage platform} {ms : List (OutboxMessage platform)}

/-- The messages `ms` are stored, and nothing else changed. -/
structure Answers (principal : Principal) (s s' : InMemoryOutbox platform)
    (ms : List (OutboxMessage platform)) : Prop where
  changed : ∀ k m, s'.messagesByKey.get? k = some m → s.messagesByKey.get? k = some m ∨ m ∈ ms
  stored : ∀ m ∈ ms, ∃ k, s'.messagesByKey.get? k = some m ∧ k.1 = principal.tenantId

theorem answers_setMessage {k : Key} (tenant : k.1 = principal.tenantId) :
    Answers principal s (s.setMessage k m) [m] := by
  refine ⟨fun j n hn => ?_, fun n hn => ?_⟩
  · rw [messagesByKey_setMessage, Dict.get?_set] at hn
    split_ifs at hn
    · cases hn
      exact .inr (List.mem_singleton.mpr rfl)
    · exact .inl hn
  · cases List.mem_singleton.mp hn
    exact ⟨k, by simp, tenant⟩

theorem answers_transition {id token : String} {expected : DeliveryStatus}
    {updates : OutboxMessage platform → OutboxMessage platform}
    (h : transition principal id token expected updates s = (.ok m', s')) :
    Answers principal s s' [m'] := by
  obtain ⟨e, he, -⟩ | ⟨k, m, n, -, hfind, -, -, -, hr, rfl⟩ := transition_cases h
  · cases he
  · cases hr
    exact answers_setMessage (find?_eq_some hfind).2.1

theorem answers_operatorTransition {id : String}
    {updates : OutboxMessage platform → OutboxMessage platform}
    (h : operatorTransition principal id updates s = (.ok m', s')) : Answers principal s s' [m'] := by
  obtain ⟨e, he, -⟩ | ⟨k, m, n, -, hfind, -, -, hr, rfl⟩ := operatorTransition_cases h
  · cases he
  · cases hr
    exact answers_setMessage (find?_eq_some hfind).2.1

theorem InMemoryOutbox.Batch.answers {due : Key → OutboxMessage platform → Bool}
    {update : Key → OutboxMessage platform → Except PyError (OutboxMessage platform)}
    {done : List (Key × OutboxMessage platform)} (h : Batch due update s done s')
    (tenant : ∀ k m, due k m = true → k.1 = principal.tenantId) :
    Answers principal s s' (done.map Prod.snd) := by
  refine ⟨fun k m hm => ?_, fun m hm => ?_⟩
  · by_cases hk : k ∈ done.map Prod.fst
    · obtain ⟨e, he, rfl⟩ := List.mem_map.mp hk
      rw [h.state, get?_setMessages_of_mem h.nodup he] at hm
      cases hm
      exact .inr (List.mem_map.mpr ⟨e, he, rfl⟩)
    · rw [h.state, get?_setMessages_of_not_mem hk] at hm
      exact .inl hm
  · obtain ⟨e, he, rfl⟩ := List.mem_map.mp hm
    obtain ⟨old, -, hdue, -⟩ := h.each e he
    refine ⟨e.1, ?_, tenant e.1 old hdue⟩
    rw [h.state]
    exact get?_setMessages_of_mem h.nodup he

namespace OutboxCall

theorem single_eq_ok {σ : Type} {x : Op σ PyError (OutboxMessage platform)} {t t' : σ} :
    single x t = (.ok ms, t') ↔ ∃ m, x t = (.ok m, t') ∧ ms = [m] := by
  constructor
  · intro h
    obtain ⟨m, u, hx, h⟩ := Op.bind_eq_ok h
    cases h
    exact ⟨m, hx, rfl⟩
  · rintro ⟨m, hx, rfl⟩
    exact Op.bind_ok hx

/-- A check in front of a call that returned was passed. -/
theorem answers_check {β : Type} {x : Except PyError β}
    {f : β → InMemoryOutbox.Method platform (OutboxMessage platform)}
    (hf : ∀ b m', f b s = (.ok m', s') → Answers principal s s' [m'])
    (h : single (Op.ofExcept x >>= f) s = (.ok ms, s')) : Answers principal s s' ms := by
  obtain ⟨m, hm, rfl⟩ := single_eq_ok.mp h
  obtain ⟨b, -, hb⟩ := Op.ofExcept_bind_eq_ok hm
  exact hf b m hb

theorem answers_run (c : OutboxCall platform) (old : c.isAdd = false) (h : c.run s = (.ok ms, s')) :
    Answers c.principal s s' ms := by
  cases c with
  | add => cases old
  | claimDue p now limit owner lease type tokens =>
    obtain ⟨e, he, -⟩ | ⟨t, o, done, -, -, -, -, -, hbatch, hr⟩ := claimDue_cases h
    · cases he
    · cases hr
      refine hbatch.answers fun k m hdue => ?_
      simp only [claimable, Bool.and_eq_true, decide_eq_true_eq] at hdue
      exact hdue.1.1.1
  | sweepExpiredSending p now error limit type =>
    obtain ⟨e, he, -⟩ | ⟨t, done, -, -, -, hbatch, hr | ⟨e, -, -, hr, -⟩⟩ := sweepExpiredSending_cases h
    · cases he
    · cases hr
      refine hbatch.answers fun k m hdue => ?_
      simp only [sweepable, Bool.and_eq_true, decide_eq_true_eq] at hdue
      exact hdue.1.1.1
    · cases hr
  | markClaimFailed =>
    obtain ⟨m, hm, rfl⟩ := single_eq_ok.mp h
    exact answers_transition hm
  | markFailed =>
    obtain ⟨m, hm, rfl⟩ := single_eq_ok.mp h
    exact answers_transition hm
  | markUncertain =>
    obtain ⟨m, hm, rfl⟩ := single_eq_ok.mp h
    exact answers_transition hm
  | markSending => exact answers_check (fun _ _ => answers_transition) h
  | markPublished => exact answers_check (fun _ _ => answers_transition) h
  | release => exact answers_check (fun _ _ => answers_transition) h
  | reschedule => exact answers_check (fun _ _ => answers_transition) h
  | resolveUncertainDelivered => exact answers_check (fun _ _ => answers_operatorTransition) h
  | resolveUncertainRetry => exact answers_check (fun _ _ => answers_operatorTransition) h

end OutboxCall

end PersonalAssistant
