import PersonalAssistant.Conversation.Approved
import PersonalAssistant.Conversation.Waiting

/-!
# Runs among other runs

What a run of the workflow may do to the states of others. Runs draw different identifiers, so a running
state belongs to the run that registered it; a first run that asks for approval leaves its state waiting
with a draft, and a run with a grant completes a state with the draft it waits with.
-/
namespace PersonalAssistant

open Lib Program InMemoryOutbox ReminderIdempotencyIdentity ConversationCommandService ReminderStores

variable {platform : Platform} {principal : Principal} {D : Set ReminderIdempotencyIdentity}
  {U : Set ApprovalSlot} {W : Set Uuid} {s s' : ConversationStores platform} {α β : Type}

/-- The workflow identifiers made from these. -/
def workflowIds (W : Set Uuid) : Set String := {id | ∃ u ∈ W, id = "wf_" ++ u.hex}

/-- A call whose drawn identifier is in `W`. -/
def ConversationCall.Draws (W : Set Uuid) : (c : (conversationCalls platform).Call) →
    (conversationCalls platform).Resp c → Prop
  | .inl .uuid4, fresh => fresh ∈ W
  | .inl _, _ => True
  | .inr _, _ => True

/-- What a call of a turn does that draws from `W`, where all turns keep the approval gate. -/
structure ConversationCall.Kept (D : Set ReminderIdempotencyIdentity) (U : Set ApprovalSlot) (W : Set Uuid)
    (c : (conversationCalls platform).Call) (s : ConversationStores platform)
    (r : (conversationCalls platform).Resp c) (s' : ConversationStores platform) : Prop where
  effect : ConversationCall.Effect c s r s'
  draws : ConversationCall.Draws W c r
  before : Gated platform D U s
  after : Gated platform D U s'
  continues : Continues D s s'

/-- What waits has a draft, and the state of every record waits with one or is completed. -/
structure Drafting (s : ConversationStores platform) : Prop where
  drafts : s.reminders.HasDrafts
  ready : ∀ k a, s.approvals.approvalsById.get? k = some a →
    s.reminders.Ready (k.1, a.idempotencyKey) a.payloadFingerprint

/-- Workflow states move on as they may, and records last. -/
structure Moves (kept : Set String) (s s' : ConversationStores platform) : Prop where
  follows : s.reminders.Follows kept s'.reminders
  records : s.approvals.Lasting s'.approvals

namespace Moves

variable {kept kept' : Set String} {t : ConversationStores platform}

theorem refl (s : ConversationStores platform) : Moves kept s s := ⟨.refl _, .refl _⟩

theorem trans (h : Moves kept s t) (g : Moves kept t s') : Moves kept s s' :=
  ⟨h.follows.trans g.follows, h.records.trans g.records⟩

theorem mono (h : Moves kept s s') (sub : ∀ id ∈ kept', id ∈ kept) : Moves kept' s s' :=
  ⟨h.follows.mono sub, h.records⟩

/-- A call on the approval store. -/
theorem of_same {c : (conversationCalls platform).Call} {r : (conversationCalls platform).Resp c}
    (h : ConversationCall.Kept D U W c s r s') (same : s'.reminders = s.reminders) : Moves kept s s' := by
  refine ⟨?_, h.continues.records⟩
  rw [same]
  exact .refl _

end Moves

/-- No running state is one of these workflows. -/
def Settled (W : Set Uuid) (s : ConversationStores platform) : Prop :=
  ∀ k st, s.reminders.states.statesByKey.get? k = some st → st.status = .running →
    st.workflowId ∉ workflowIds W

theorem Settled.moves (h : Settled W s) (hs : Moves (workflowIds W) s s') : Settled W s' :=
  fun k st hk hst hmem => h k st (hs.follows.started k st hk hst hmem) hst hmem

/-- The states of the other keys are settled. -/
def SettledBut (W : Set Uuid) (key : Key) (s : ConversationStores platform) : Prop :=
  ∀ k st, s.reminders.states.statesByKey.get? k = some st → st.status = .running →
    st.workflowId ∈ workflowIds W → k = key

theorem SettledBut.moves {key : Key} (h : SettledBut W key s) (hs : Moves (workflowIds W) s s') :
    SettledBut W key s' :=
  fun k st hk hst hmem => h k st (hs.follows.started k st hk hst hmem) hst hmem

theorem stable_settled : Stable (@Drafting platform) (Moves (workflowIds W)) (Settled W) :=
  fun _ _ _ _ h hs => h.moves hs

namespace Drafting

theorem follows {kept : Set String} (h : Drafting s) (drafts : s'.reminders.HasDrafts)
    (hs : s.reminders.Follows kept s'.reminders) (same : s'.approvals = s.approvals) : Drafting s' :=
  ⟨drafts, fun k a ha => (h.ready k a (same ▸ ha)).follows h.drafts hs⟩

/-- A record may be decided. -/
theorem decides {k : Key} {status : PendingApprovalStatus} (h : Drafting s)
    (hs : s'.approvals = s.approvals ∨ InMemoryApprovalStore.Decides k status s.approvals s'.approvals)
    (same : s'.reminders = s.reminders) : Drafting s' := by
  refine ⟨same ▸ h.drafts, fun j b hb => ?_⟩
  rw [same]
  obtain heq | ⟨a, now, hget, -, heq⟩ := hs
  · exact h.ready j b (heq ▸ hb)
  · rw [heq] at hb
    simp only [InMemoryApprovalStore.setApproval, Dict.get?_set] at hb
    split_ifs at hb with hj
    · cases hb
      exact hj ▸ h.ready k a hget
    · exact h.ready j b hb

/-- A record may be added for a state that is ready. -/
theorem create {a : PendingApproval} {r : Except PyError PendingApproval} (h : Drafting s)
    (ready : s.reminders.Ready (a.tenantId, a.idempotencyKey) a.payloadFingerprint)
    (hs : InMemoryApprovalStore.create platform principal a s.approvals = (r, s'.approvals))
    (same : s'.reminders = s.reminders) : Drafting s' := by
  refine ⟨same ▸ h.drafts, fun k b hb => ?_⟩
  rw [same]
  obtain ⟨heq, -⟩ | ⟨-, -, -, heq⟩ := InMemoryApprovalStore.create_cases hs
  · exact h.ready k b (heq ▸ hb)
  · rw [heq] at hb
    simp only [InMemoryApprovalStore.written, Dict.get?_set] at hb
    split_ifs at hb with hk
    · cases hb
      exact hk ▸ ready
    · exact h.ready k b hb

theorem empty : Drafting (.empty : ConversationStores platform) := by
  refine ⟨⟨fun k st h => ?_, fun k st h => ?_⟩, fun k a h => ?_⟩
  · cases h
  · cases h
  · cases h

end Drafting

theorem stable_ready {kept : Set String} {k : Key} {fp : String} :
    Stable (@Drafting platform) (Moves kept) fun s => s.reminders.Ready k fp :=
  fun _ _ hi _ h hs => h.follows hi.drafts hs.follows

/-! ## Runs -/

/-- A run of the workflow whose calls move the states of its own identifiers only. -/
def Running (platform : Platform) (D : Set ReminderIdempotencyIdentity) (U : Set ApprovalSlot) (W : Set Uuid)
    (p : WorkflowProgram platform α) (Q : α → ConversationStores platform → Prop)
    (P : ConversationStores platform → Prop) : Prop :=
  p.Safe (fun c s r s' => ConversationCall.Kept D U W (.inl c) s r s') Drafting (Moves (workflowIds W))
    (Moves (workflowIds W)ᶜ) (OnOk Q) P

namespace Running

variable {K : ConversationStores platform → Prop}

/-- Calls that change nothing are passed over. -/
theorem after {p : WorkflowProgram platform α} {f : α → WorkflowProgram platform β}
    {φ : α → Prop} {Q : β → ConversationStores platform → Prop}
    (stable : Stable Drafting (Moves (workflowIds W)) K) (still : p.All WorkflowCall.Still) (ends : p.Ends φ)
    (next : ∀ a, φ a → Running platform D U W (f a) Q K) : Running platform D U W (p >>= f) Q K := by
  refine Safe.then (Safe.of_calls stable (fun c s r s' hc inv hK h => ?_) still ends) fun a =>
    Safe.know (fun s _ h => h.1) fun ha => (next a ha).pre fun s _ h => h.2
  obtain rfl := ConversationStores.ext (WorkflowCall.same_of_still hc h.effect.1) h.effect.2
  exact ⟨inv, .refl _, hK⟩

theorem ofStill {p : WorkflowProgram platform α} {φ : α → Prop}
    (stable : Stable Drafting (Moves (workflowIds W)) K) (still : p.All WorkflowCall.Still) (ends : p.Ends φ) :
    Running platform D U W p (fun a s => φ a ∧ K s) K := by
  refine Safe.of_calls stable (fun c s r s' hc inv hK h => ?_) still ends
  obtain rfl := ConversationStores.ext (WorkflowCall.same_of_still hc h.effect.1) h.effect.2
  exact ⟨inv, .refl _, hK⟩

theorem post {p : WorkflowProgram platform α} {Q Q' : α → ConversationStores platform → Prop}
    {P : ConversationStores platform → Prop} (h : Running platform D U W p Q P)
    (weaken : ∀ a s, Q a s → Q' a s) : Running platform D U W p Q' P := by
  refine Safe.post h fun r s _ hr => ?_
  cases r with
  | ok a => exact weaken a s hr
  | error e => trivial

end Running

/-! ## A first run -/

namespace ReminderWorkflow

open InMemoryWorkflowStateStore

variable {w : ReminderWorkflow platform} {request : ReminderWorkflowInput} {i : ReminderIdempotency}
  {state : WorkflowState}

/-- What is known of a registration. -/
structure Registered (W : Set Uuid) (principal : Principal) (state : WorkflowState) (fp : String)
    (registration : WorkflowStateRegistration) (s : ConversationStores platform) : Prop where
  fresh : registration.replayed = false → registration.state = state ∧
    s.reminders.states.statesByKey.get? (principal.tenantId, state.idempotencyKey) = some state ∧
    SettledBut W (principal.tenantId, state.idempotencyKey) s
  replayed : registration.replayed = true → Settled W s
  waiting : registration.state.Awaiting → s.reminders.Ready (principal.tenantId, state.idempotencyKey) fp

theorem Registered.stable {fp : String} {registration : WorkflowStateRegistration}
    (running : state.status = .running) (own : state.workflowId ∈ workflowIds W) :
    Stable (@Drafting platform) (Moves (workflowIds W)) (Registered W principal state fp registration) := by
  rintro s s' hi - h hs
  refine ⟨fun hfresh => ?_, fun hreplayed => (h.replayed hreplayed).moves hs,
    fun hwaiting => (h.waiting hwaiting).follows hi.drafts hs.follows⟩
  obtain ⟨hstate, hget, hsettled⟩ := h.fresh hfresh
  exact ⟨hstate, hs.follows.running _ _ hget running own, hsettled.moves hs⟩

theorem running_register {fp : String} (running : state.status = .running)
    (own : state.workflowId ∈ workflowIds W) (hfp : state.payloadFingerprint = some fp) :
    Running platform D U W (registerOrReplay principal state)
      (fun registration s => registration.state.status ≠ .pending ∧
        Registered W principal state fp registration s) (Settled W) := by
  have stable : ∀ registration, Stable (@Drafting platform) (Moves (workflowIds W)) fun s =>
      registration.state.status ≠ .pending ∧ Registered W principal state fp registration s :=
    fun registration => .and (.const _) (Registered.stable running own)
  refine Safe.call (M := fun r => OnOk (fun registration s => registration.state.status ≠ .pending ∧
    Registered W principal state fp registration s) r) (Stable.onOk stable) ?_ fun r => Safe.ofExcept r
  intro s r s' inv settled h
  obtain ⟨heffect, happrovals⟩ := h.effect
  obtain ⟨⟨name, rfl⟩, hsame⟩ | ⟨now, hregister⟩ := heffect
  · obtain rfl := ConversationStores.ext hsame happrovals
    exact ⟨inv, .refl _, trivial⟩
  have hout : state.workflowId ∉ (workflowIds W)ᶜ := fun h => h own
  obtain ⟨hdrafts, hfollows, hother, hknown⟩ := follows_register inv.drafts running hout hregister
  refine ⟨inv.follows hdrafts hfollows happrovals, ⟨hfollows, h.continues.records⟩, ?_⟩
  cases r with
  | error e => trivial
  | ok registration =>
    obtain ⟨hget, hfingerprint, hcases⟩ := hknown registration rfl
    refine ⟨hdrafts.pending _ _ hget, fun hfresh => ?_, fun hreplayed => ?_, fun hwaiting => ?_⟩
    · obtain ⟨hreplayed, -⟩ | ⟨-, hstate⟩ := hcases
      · cases hfresh.symm.trans hreplayed
      refine ⟨hstate, hstate ▸ hget, fun k st hk hst hmem => ?_⟩
      by_contra hne
      exact settled k st ((hother k hne).symm.trans hk) hst hmem
    · obtain ⟨-, hsame⟩ | ⟨hfresh, -⟩ := hcases
      · obtain rfl := ConversationStores.ext hsame happrovals
        exact settled
      · cases hfresh.symm.trans hreplayed
    · exact ⟨_, hget, hfingerprint.trans hfp, .inl hwaiting⟩

/-- A turn writes over the state it registered. -/
theorem running_upsert {st : WorkflowState} {key fp : String} (running : st.status = .running)
    (own : st.workflowId ∈ workflowIds W) (hkey : state.idempotencyKey = key)
    (hwaiting : state.status = .waitingApproval) (hfp : state.payloadFingerprint = some fp)
    (hstate : state.Awaiting → ∃ d, ReminderDraft.fromMapping platform state.data = .ok d) :
    Running platform D U W (upsert principal state)
      (fun _ s => Settled W s ∧ (state.Awaiting → s.reminders.Ready (principal.tenantId, key) fp))
      (fun s => s.reminders.states.statesByKey.get? (principal.tenantId, key) = some st ∧
        SettledBut W (principal.tenantId, key) s) := by
  subst hkey
  have stable : ∀ _ : WorkflowState, Stable (@Drafting platform) (Moves (workflowIds W)) fun s => Settled W s ∧
      (state.Awaiting → s.reminders.Ready (principal.tenantId, state.idempotencyKey) fp) :=
    fun _ => .and stable_settled fun s s' hi _ h hs hawaiting => (h hawaiting).follows hi.drafts hs.follows
  refine Safe.call (M := fun r => OnOk (fun _ s => Settled W s ∧
    (state.Awaiting → s.reminders.Ready (principal.tenantId, state.idempotencyKey) fp)) r)
    (Stable.onOk stable) ?_ fun r => Safe.ofExcept r
  rintro s r s' inv ⟨hget, hsettled⟩ h
  obtain ⟨heffect, happrovals⟩ := h.effect
  obtain ⟨⟨name, rfl⟩, hsame⟩ | hupsert := heffect
  · obtain rfl := ConversationStores.ext hsame happrovals
    exact ⟨inv, .refl _, trivial⟩
  have hout : st.workflowId ∉ (workflowIds W)ᶜ := fun h => h own
  obtain ⟨hdrafts, hfollows, hother, hstored⟩ :=
    follows_upsert inv.drafts hget running hout hwaiting hstate hupsert
  refine ⟨inv.follows hdrafts hfollows happrovals, ⟨hfollows, h.continues.records⟩, ?_⟩
  cases r with
  | error e => trivial
  | ok stored =>
    have hstored := hstored stored rfl
    refine ⟨fun k st' hk hst' hmem => ?_, fun hawaiting => ⟨state, hstored, hfp, .inl hawaiting⟩⟩
    by_cases hne : k = (principal.tenantId, state.idempotencyKey)
    · subst hne
      cases hstored.symm.trans hk
      cases hwaiting.symm.trans hst'
    · exact hne (hsettled k st' ((hother k hne).symm.trans hk) hst' hmem)

theorem ends_registrationResult_waiting (traceIds : List String) (registration : WorkflowStateRegistration) :
    (w.registrationResult principal i traceIds registration).Ends fun result =>
      (result = none → registration.replayed = false ∨ registration.state.status = .pending) ∧
        ∀ r ∈ result, registration.replayed = true ∧
          (r.approvalRequired = true → registration.state.Awaiting) := by
  unfold registrationResult
  cases hreplay : w.replayOf registration with
  | error e => trivial
  | ok replay =>
    obtain ⟨hnone, hsome⟩ := replayOf_cases hreplay
    rw [ofExcept_ok_bind]
    cases replay with
    | none =>
      refine ⟨fun _ => hnone rfl, ?_⟩
      simp
    | some replay =>
      have hresult : ∀ reply result, replay.2.result platform i traceIds reply = .ok result →
          result.approvalRequired = true → registration.state.Awaiting := by
        intro reply result hresult hrequired
        obtain ⟨_, -, hresult⟩ := except_bind_eq_ok.mp hresult
        obtain ⟨_, -, hresult⟩ := except_bind_eq_ok.mp hresult
        rw [(ReminderWorkflowResult.validate_eq_ok hresult).1] at hrequired
        exact (hsome replay.1 replay.2 rfl).2 hrequired
      refine .after fun reply => .bind (.ofExcept (hresult reply)) fun result h => ?_
      refine ⟨nofun, fun r hr => ?_⟩
      cases hr
      exact ⟨(hsome replay.1 replay.2 rfl).1, h⟩

theorem ends_validate (result : ReminderWorkflowResult) :
    (Program.ofExcept (ReminderWorkflowResult.validate platform result) : WorkflowProgram platform _).Ends
      fun r => r = result :=
  .ofExcept fun _ hr => (ReminderWorkflowResult.validate_eq_ok hr).1

theorem running_proceed (hreads : platform.ReadsDatetimes) (running : state.status = .running)
    (own : state.workflowId ∈ workflowIds W) (hkey : state.idempotencyKey = i.key platform)
    (hfp : state.payloadFingerprint = some (i.payloadFingerprint platform)) (traceIds : List String) :
    Running platform D U W (w.proceed principal request i state traceIds)
      (fun result s => Settled W s ∧ (result.approvalRequired = true →
        s.reminders.Ready (principal.tenantId, i.key platform) (i.payloadFingerprint platform)))
      (fun s => s.reminders.states.statesByKey.get? (principal.tenantId, i.key platform) = some state ∧
        SettledBut W (principal.tenantId, i.key platform) s) := by
  have hstable : Stable (@Drafting platform) (Moves (workflowIds W)) fun s =>
      s.reminders.states.statesByKey.get? (principal.tenantId, i.key platform) = some state ∧
        SettledBut W (principal.tenantId, i.key platform) s :=
    fun s s' _ _ h hs => ⟨hs.follows.running _ _ h.1 running own, h.2.moves hs⟩
  have hready : Stable (@Drafting platform) (Moves (workflowIds W)) fun s => Settled W s ∧
    s.reminders.Ready (principal.tenantId, i.key platform) (i.payloadFingerprint platform) :=
    .and stable_settled stable_ready
  refine Running.after hstable (still_resolveExtraction _) (.trivial _) fun resolution _ => ?_
  obtain ⟨extraction, clarification, llmTraceId⟩ := resolution
  cases extraction with
  | none =>
    refine Running.after hstable (.ofExcept _) (.trivial _) fun text _ => ?_
    refine Running.after hstable (still_guardedReply _ _) (.trivial _) fun reply _ => ?_
    refine Running.after hstable still_utcnow (.trivial _) fun now _ => ?_
    refine Safe.then (running_upsert running own hkey rfl hfp fun hwaiting => ?_) fun stored => ?_
    · have hstep : ReminderWorkflowStep.needsClarification = ReminderWorkflowStep.approvalRequired := hwaiting.2
      exact absurd hstep (by decide)
    · refine Safe.pre (P := Settled W) ?_ fun _ _ h => h.1
      refine Running.post (Running.ofStill stable_settled (.ofExcept _) (ends_validate _)) ?_
      rintro result s ⟨rfl, hsettled⟩
      refine ⟨hsettled, fun hrequired => ?_⟩
      cases hrequired
  | some extraction =>
    refine Running.after hstable (still_writeTrace _ _ _) (.trivial _) fun approval _ => ?_
    refine Running.after hstable (.ofExcept _) (.trivial _) fun draft _ => ?_
    refine Running.after hstable still_utcnow (.trivial _) fun now _ => ?_
    refine Safe.then (running_upsert running own hkey rfl hfp fun hwaiting => ?_) fun stored => ?_
    · exact ⟨draft, ReminderDraft.fromMapping_of_carries hreads (ReminderDraft.carries_mergeData draft state.data)⟩
    · refine Safe.pre (P := fun s => Settled W s ∧ s.reminders.Ready (principal.tenantId, i.key platform)
        (i.payloadFingerprint platform)) ?_ fun s _ h => ⟨h.1, h.2 ⟨rfl, rfl⟩⟩
      refine Running.after hready (.ofExcept _) (.trivial _) fun text _ => ?_
      refine Running.after hready (still_guardedReply _ _) (.trivial _) fun reply _ => ?_
      exact (Running.ofStill hready (.ofExcept _) (.trivial _)).post fun result s h => ⟨h.2.1, fun _ => h.2.2⟩

theorem running_runBeforeApproval (hreads : platform.ReadsDatetimes) {fresh : Uuid}
    {createdAt updatedAt : Instant} (own : "wf_" ++ fresh.hex ∈ workflowIds W) (traceIds : List String) :
    Running platform D U W (w.runBeforeApproval principal request i
        (initialState platform principal request i fresh createdAt updatedAt) traceIds)
      (fun result s => ResultOf platform i result ∧ Settled W s ∧ (result.approvalRequired = true →
        s.reminders.Ready (principal.tenantId, i.key platform) (i.payloadFingerprint platform)))
      (Settled W) := by
  refine Safe.ends ?_ (ends_runBeforeApproval _ _)
  refine Safe.then (running_register rfl own rfl) fun registration => ?_
  refine Safe.know (fun s _ h => h.1) fun hpending => Safe.pre ?_ fun s _ h => h.2
  have hstable : Stable (@Drafting platform) (Moves (workflowIds W)) (Registered W principal
      (initialState platform principal request i fresh createdAt updatedAt)
      (i.payloadFingerprint platform) registration) := Registered.stable rfl own
  refine Running.after hstable (still_registrationResult _ _)
    (ends_registrationResult_waiting traceIds registration) fun replay hreplay => ?_
  cases replay with
  | some result =>
    have hreplayed : registration.replayed = true := (hreplay.2 result rfl).1
    refine safe_ret.mpr fun s _ h => ⟨h.replayed hreplayed, fun hrequired => h.waiting ?_⟩
    exact (hreplay.2 result rfl).2 hrequired
  | none =>
    have hfresh := (hreplay.1 rfl).resolve_right hpending
    refine Safe.know (fun s _ h => (h.fresh hfresh).1) fun hstate => ?_
    dsimp only
    rw [hstate]
    exact Safe.pre (running_proceed hreads rfl own rfl rfl _) fun s _ h => (h.fresh hfresh).2

/-- A run up to its registration changes nothing; it draws the identifier of its workflow. -/
theorem running_run_of {Q : ReminderWorkflowResult → ConversationStores platform → Prop}
    {K : ConversationStores platform → Prop} (stable : Stable Drafting (Moves (workflowIds W)) K)
    (before : request.approval = none → ∀ i fresh createdAt updatedAt traceIds, fresh ∈ W →
      Running platform D U W (w.runBeforeApproval principal request i
        (initialState platform principal request i fresh createdAt updatedAt) traceIds) Q K)
    (approved : request.approval ≠ none → ∀ i fresh createdAt updatedAt traceIds,
      reminderIdempotency platform principal request = .ok i →
      Running platform D U W (w.runApproved principal request i
        (initialState platform principal request i fresh createdAt updatedAt) traceIds) Q K) :
    Running platform D U W (w.run principal request) Q K := by
  unfold run
  refine Safe.check (fun _ _ _ _ _ => trivial) fun i hi => ?_
  refine Running.after stable (.ofExcept _) (.trivial _) fun scan _ => ?_
  refine Running.after stable (still_writeTrace _ _ _) (.trivial _) fun guardrailTrace _ => ?_
  refine Running.after stable (.ofExcept _) (.trivial _) fun _ _ => ?_
  refine Running.after stable (.ofExcept _) (.trivial _) fun _ _ => ?_
  refine Running.after stable still_checkApproval (.trivial _) fun _ _ => ?_
  refine Running.after stable (still_writeTrace _ _ _) (.trivial _) fun started _ => ?_
  refine Running.after stable (still_writeTrace _ _ _) (.trivial _) fun contextTrace _ => ?_
  rw [uuid4, perform_bind]
  refine Safe.call (M := fun fresh s => fresh ∈ W ∧ K s) (fun _ => .and (.const _) stable) ?_ fun fresh => ?_
  · intro s fresh s' inv hK h
    obtain rfl := ConversationStores.ext h.effect.1 h.effect.2
    exact ⟨inv, .refl _, h.draws, hK⟩
  refine Safe.know (fun _ _ h => h.1) fun hfresh => Safe.pre ?_ fun _ _ h => h.2
  refine Running.after stable still_utcnow (.trivial _) fun createdAt _ => ?_
  refine Running.after stable still_utcnow (.trivial _) fun updatedAt _ => ?_
  cases happroval : request.approval with
  | none => exact before happroval i fresh createdAt updatedAt _ hfresh
  | some grant => exact approved (by simp [happroval]) i fresh createdAt updatedAt _ hi

/-- A first run that asks for approval leaves the state ready. -/
theorem running_run (hreads : platform.ReadsDatetimes) (happroval : request.approval = none) :
    Running platform D U W (w.run principal request)
      (fun result s => Settled W s ∧ (result.approvalRequired = true →
        s.reminders.Ready (principal.tenantId, result.idempotencyKey) result.payloadFingerprint))
      (Settled W) := by
  refine running_run_of stable_settled (fun _ i fresh createdAt updatedAt traceIds hfresh => ?_) fun h => ?_
  · refine Running.post (running_runBeforeApproval hreads ⟨fresh, hfresh, rfl⟩ _) fun result s h => ?_
    rw [h.1.idempotencyKey, h.1.payloadFingerprint]
    exact h.2
  · exact absurd happroval h

/-! ## A run with a grant -/

/-- What an approved run has read of its state, when it opens its transaction with this extraction. -/
def ReadFor (k : Key) (existing : Option WorkflowState) (s : ConversationStores platform) : Prop :=
  ∃ st, existing = some st ∧
    (∀ d, st.Awaiting → ReminderDraft.fromMapping platform st.data = .ok d → Prepared s.reminders k (some d)) ∧
    (¬ st.Awaiting → Prepared s.reminders k none)

theorem ReadFor.stable {k : Key} {existing : Option WorkflowState} :
    Stable (@Drafting platform) (Moves (workflowIds W)) (ReadFor k existing) := by
  rintro s s' - - ⟨st, hexisting, hawaiting, hcompleted⟩ hs
  exact ⟨st, hexisting, fun d hst hd => (hawaiting d hst hd).follows hs.follows,
    fun hst => (hcompleted hst).follows hs.follows⟩

theorem running_getByIdempotencyKey {key fp : String} :
    Running platform D U W (getByIdempotencyKey principal key)
      (fun existing s => ReadFor (principal.tenantId, key) existing s ∧ Settled W s)
      (fun s => s.reminders.Ready (principal.tenantId, key) fp ∧ Settled W s) := by
  refine Safe.call (M := fun r => OnOk (fun existing s =>
    ReadFor (principal.tenantId, key) existing s ∧ Settled W s) r)
    (Stable.onOk fun _ => .and ReadFor.stable stable_settled) ?_ fun r => Safe.ofExcept r
  rintro s r s' inv ⟨⟨st, hget, -, hst⟩, settled⟩ h
  obtain ⟨heffect, happrovals⟩ := h.effect
  have hsame : s'.reminders = s.reminders := WorkflowCall.same_of_still
    (c := .getByIdempotencyKey principal key) trivial heffect
  obtain rfl := ConversationStores.ext hsame happrovals
  refine ⟨inv, .refl _, ?_⟩
  obtain ⟨⟨name, rfl⟩, -⟩ | hread := heffect
  · trivial
  obtain ⟨states, hrun, -⟩ := Op.zoom_cases hread
  rcases Op.ofExcept_bind_cases hrun with ⟨e, -, ho⟩ | ⟨_, -, ho⟩
  · cases ho
    trivial
  · cases ho
    refine ⟨⟨st, hget, fun d hawaiting hd => .inl ⟨st, d, hget, hawaiting, hd, rfl⟩, fun hnot => ?_⟩, settled⟩
    exact .inr ⟨st, hget, hst.resolve_left hnot⟩

theorem ends_approvedExtraction {st : WorkflowState} :
    (w.approvedExtraction principal request i (some st)).Ends fun resolution =>
      (∃ d, st.Awaiting ∧ ReminderDraft.fromMapping platform st.data = .ok d ∧
        resolution.extraction = some d) ∨ ¬ st.Awaiting ∧ resolution.extraction = none := by
  unfold approvedExtraction
  dsimp only
  split_ifs with hst
  · cases hd : ReminderDraft.fromMapping platform st.data with
    | error e => trivial
    | ok d =>
      rw [ofExcept_ok_bind, ReminderDraft.toExtraction_eq]
      exact .inl ⟨d, hst, rfl, rfl⟩
  · exact .inr ⟨hst, rfl⟩

theorem running_transact {run : ApprovedRun platform} (proper : run.Proper D) :
    Running platform D U W (transact principal run) (fun _ s => Settled W s)
      (fun s => Prepared s.reminders (principal.tenantId, run.key) run.extraction ∧ Settled W s) := by
  refine Safe.call (M := fun _ => Settled W) (fun _ => stable_settled) ?_ fun r => ?_
  · rintro s r s' inv ⟨prepared, settled⟩ h
    obtain ⟨⟨env, heffect⟩, happrovals⟩ := h.effect
    -- no running state is kept or left behind, whosever it is
    obtain ⟨hdrafts, hfollows⟩ : s'.reminders.HasDrafts ∧ s.reminders.Follows Set.univ s'.reminders :=
      ApprovedRun.follows_of_outcome proper h.before.effects inv.drafts prepared
        (ApprovedRun.outcome_of_begin heffect)
    have hmoves : Moves Set.univ s s' := ⟨hfollows, h.continues.records⟩
    exact ⟨inv.follows hdrafts hfollows happrovals, hmoves.mono fun _ _ => trivial,
      settled.moves (hmoves.mono fun _ _ => trivial)⟩
  · exact (Safe.ofExcept r).pre fun _ _ h => by cases r <;> first | exact h | trivial

theorem running_runApproved (mem : i.identity ∈ D) {state : WorkflowState}
    (hkey : state.idempotencyKey = i.key platform) (hstatus : state.status = .running) {fp : String}
    (traceIds : List String) :
    Running platform D U W (w.runApproved principal request i state traceIds) (fun _ s => Settled W s)
      (fun s => s.reminders.Ready (principal.tenantId, i.key platform) fp ∧ Settled W s) := by
  refine Safe.then running_getByIdempotencyKey fun existing => ?_
  have hread : ∀ existing, Stable (@Drafting platform) (Moves (workflowIds W)) fun s =>
      ReadFor (principal.tenantId, i.key platform) existing s ∧ Settled W s :=
    fun existing => .and ReadFor.stable stable_settled
  refine Running.after (hread existing) (.ofExcept _) (.trivial _) fun _ _ => ?_
  have hsome : ∀ s : ConversationStores platform,
      ReadFor (principal.tenantId, i.key platform) existing s → ∃ st, existing = some st :=
    fun s ⟨st, hst, _⟩ => ⟨st, hst⟩
  refine Safe.know (fun s _ h => hsome s h.1) fun ⟨st, hst⟩ => ?_
  subst hst
  refine Running.after (hread _) (still_approvedExtraction _) ends_approvedExtraction
    fun resolution hresolution => ?_
  have hprepared : ∀ s : ConversationStores platform, ReadFor (principal.tenantId, i.key platform) (some st) s →
      Prepared s.reminders (principal.tenantId, i.key platform) resolution.extraction := by
    rintro s ⟨st', hst', hawaiting, hcompleted⟩
    cases hst'
    obtain ⟨d, hst, hd, hx⟩ | ⟨hst, hx⟩ := hresolution
    · exact hx ▸ hawaiting d hst hd
    · exact hx ▸ hcompleted hst
  refine Safe.then (Safe.pre (running_transact ⟨mem, hkey, hstatus⟩) fun s _ h => ⟨hprepared s h.1, h.2⟩)
    fun result => ?_
  refine Running.post (Running.ofStill stable_settled ?_ (.trivial _)) fun _ _ h => h.2
  cases result with
  | returned => trivial
  | created event reminder notice =>
    cases resolution.extraction with
    | none => trivial
    | some extraction => exact still_finish _ _ _ _ _

theorem running_run_approved
    (mem : ∀ i, reminderIdempotency platform principal request = .ok i → i.identity ∈ D)
    (happroval : request.approval ≠ none) {key fp : String}
    (hkey : ∀ i, reminderIdempotency platform principal request = .ok i → i.key platform = key) :
    Running platform D U W (w.run principal request) (fun _ s => Settled W s)
      (fun s => s.reminders.Ready (principal.tenantId, key) fp ∧ Settled W s) := by
  refine running_run_of (.and stable_ready stable_settled) (fun h => absurd h happroval) ?_
  intro _ i fresh createdAt updatedAt traceIds hi
  exact hkey i hi ▸ running_runApproved (mem i hi) rfl rfl traceIds

end ReminderWorkflow

end PersonalAssistant
