import PersonalAssistant.Conversation.Gate
import PersonalAssistant.Reminders.Drafts

/-!
# Drafts that wait for approval

What becomes of a workflow state. A state that waits with a draft stays as it is until it is completed, and
then the calendar shows the draft; a completed state stays; a running state is only changed by the turn
that registered it, whose workflow identifier it carries.
-/
namespace PersonalAssistant

open Lib InMemoryOutbox ReminderIdempotencyIdentity

variable {platform : Platform} {principal : Principal} {D : Set ReminderIdempotencyIdentity}
  {U : Set ApprovalSlot}

/-- The state holds a draft and waits for its approval. -/
def WorkflowState.Awaiting (st : WorkflowState) : Prop :=
  st.status = .waitingApproval ∧ st.step = ReminderWorkflowStep.approvalRequired

/-- The event is the one the draft describes. -/
structure ReminderDraft.ShownBy (d : ReminderDraft platform) (e : CalendarEventResult) : Prop where
  title : e.title = d.title.text
  startsAt : e.startsAt = d.startsAt
  timezone : e.timezone = d.timezone.text

namespace ReminderStores

variable {s s' t : ReminderStores platform} {kept kept' : Set String}

/-- The calendar event of a key. -/
def eventOf (s : ReminderStores platform) (k : Key) : Option CalendarEventResult :=
  s.calendar.eventsByKey.get? (k.1, k.2 ++ ":calendar")

/-- What may become of the workflow states; the running states of the workflows in `kept` are the same. -/
structure Follows (kept : Set String) (s s' : ReminderStores platform) : Prop where
  completed : ∀ k st, s.states.statesByKey.get? k = some st → st.status = .completed →
    s'.states.statesByKey.get? k = some st ∧ s'.eventOf k = s.eventOf k
  awaiting : ∀ k st d, s.states.statesByKey.get? k = some st → st.Awaiting →
    ReminderDraft.fromMapping platform st.data = .ok d → s'.states.statesByKey.get? k = some st ∨
      ∃ st' e, s'.states.statesByKey.get? k = some st' ∧ st'.status = .completed ∧
        st'.payloadFingerprint = st.payloadFingerprint ∧ s'.eventOf k = some e ∧ d.ShownBy e
  running : ∀ k st, s.states.statesByKey.get? k = some st → st.status = .running → st.workflowId ∈ kept →
    s'.states.statesByKey.get? k = some st
  started : ∀ k st, s'.states.statesByKey.get? k = some st → st.status = .running → st.workflowId ∈ kept →
    s.states.statesByKey.get? k = some st

theorem Follows.refl (s : ReminderStores platform) : Follows kept s s :=
  ⟨fun _ _ h _ => ⟨h, rfl⟩, fun _ _ _ h _ _ => .inl h, fun _ _ h _ _ => h, fun _ _ h _ _ => h⟩

theorem Follows.trans (h : Follows kept s t) (g : Follows kept t s') : Follows kept s s' := by
  refine ⟨fun k st hk hst => ?_, fun k st d hk hst hd => ?_, fun k st hk hst hmem => ?_,
    fun k st hk hst hmem => ?_⟩
  · obtain ⟨hk', he⟩ := h.completed k st hk hst
    obtain ⟨hk'', he'⟩ := g.completed k st hk' hst
    exact ⟨hk'', he'.trans he⟩
  · obtain hk' | ⟨st', e, hk', hst', hfp, he, hshown⟩ := h.awaiting k st d hk hst hd
    · exact g.awaiting k st d hk' hst hd
    · obtain ⟨hk'', he'⟩ := g.completed k st' hk' hst'
      exact .inr ⟨st', e, hk'', hst', hfp, he'.trans he, hshown⟩
  · exact g.running k st (h.running k st hk hst hmem) hst hmem
  · exact h.started k st (g.started k st hk hst hmem) hst hmem

theorem Follows.mono (h : Follows kept s s') (sub : ∀ id ∈ kept', id ∈ kept) : Follows kept' s s' :=
  ⟨h.completed, h.awaiting, fun k st hk hst hmem => h.running k st hk hst (sub _ hmem),
    fun k st hk hst hmem => h.started k st hk hst (sub _ hmem)⟩

/-- A state is stored where there was none, or over a running one that is not kept. -/
theorem Follows.set {k : Key} {state : WorkflowState} {ids : Dict Key String}
    (free : ∀ st, s.states.statesByKey.get? k = some st → st.status = .running ∧ st.workflowId ∉ kept)
    (own : state.status = .running → state.workflowId ∉ kept) :
    Follows kept s { s with states := ⟨s.states.statesByKey.set k state, ids⟩ } := by
  have hother : ∀ j st, s.states.statesByKey.get? j = some st → (j = k → False) →
      (s.states.statesByKey.set k state).get? j = some st :=
    fun j st hj hne => (Dict.get?_set_of_ne _ _ hne).trans hj
  refine ⟨fun j st hj hst => ⟨hother j st hj ?_, rfl⟩, fun j st d hj hst hd => .inl (hother j st hj ?_),
    fun j st hj hst hmem => hother j st hj ?_, fun j st hj hst hmem => ?_⟩
  · rintro rfl
    have hrunning := (free st hj).1
    rw [hst] at hrunning
    cases hrunning
  · rintro rfl
    have hrunning := (free st hj).1
    rw [hst.1] at hrunning
    cases hrunning
  · rintro rfl
    exact (free st hj).2 hmem
  · simp only [Dict.get?_set] at hj
    split_ifs at hj with hjk
    · cases hj
      exact absurd hmem (own hst)
    · exact hj

/-- A completed state or one that waits with a draft, for this payload. -/
def Ready (s : ReminderStores platform) (k : Key) (payloadFingerprint : String) : Prop :=
  ∃ st, s.states.statesByKey.get? k = some st ∧ st.payloadFingerprint = some payloadFingerprint ∧
    (st.Awaiting ∨ st.status = .completed)

/-- Every state that waits has a draft, and no run has left a pending state. -/
structure HasDrafts (s : ReminderStores platform) : Prop where
  draft : ∀ k st, s.states.statesByKey.get? k = some st → st.Awaiting →
    ∃ d, ReminderDraft.fromMapping platform st.data = .ok d
  pending : ∀ k st, s.states.statesByKey.get? k = some st → st.status ≠ .pending

theorem Ready.follows {k : Key} {fp : String} (drafts : s.HasDrafts) (h : s.Ready k fp)
    (hs : Follows kept s s') : s'.Ready k fp := by
  obtain ⟨st, hk, hfp, hst | hst⟩ := h
  · obtain ⟨d, hd⟩ := drafts.draft k st hk hst
    obtain hk' | ⟨st', e, hk', hst', hfp', -⟩ := hs.awaiting k st d hk hst hd
    · exact ⟨st, hk', hfp, .inl hst⟩
    · exact ⟨st', hk', hfp'.trans hfp, .inr hst'⟩
  · exact ⟨st, (hs.completed k st hk hst).1, hfp, .inr hst⟩

theorem HasDrafts.set {k : Key} {state : WorkflowState} {ids : Dict Key String} (h : s.HasDrafts)
    (hstate : state.Awaiting → ∃ d, ReminderDraft.fromMapping platform state.data = .ok d)
    (hpending : state.status ≠ .pending) :
    HasDrafts { s with states := ⟨s.states.statesByKey.set k state, ids⟩ } := by
  refine ⟨fun j st hj hst => ?_, fun j st hj => ?_⟩
  · simp only [Dict.get?_set] at hj
    split_ifs at hj with hjk
    · cases hj
      exact hstate hst
    · exact h.draft j st hj hst
  · simp only [Dict.get?_set] at hj
    split_ifs at hj with hjk
    · cases hj
      exact hpending
    · exact h.pending j st hj

end ReminderStores

/-! ## Replays -/

/-- A registration without a replay is fresh or pending; a replay that asks for approval is one of a state
that waits. -/
theorem ReminderWorkflow.replayOf_cases {w : ReminderWorkflow platform} {x : Option (String × Replay)}
    {registration : WorkflowStateRegistration} (h : w.replayOf registration = .ok x) :
    (x = none → registration.replayed = false ∨ registration.state.status = .pending) ∧
      ∀ text replay, x = some (text, replay) → registration.replayed = true ∧
        (replay.approvalRequired = true → registration.state.Awaiting) := by
  unfold replayOf at h
  cases hreplayed : registration.replayed with
  | false =>
    simp only [hreplayed, Bool.not_false, if_true] at h
    cases h
    simp
  | true =>
    simp only [hreplayed, Bool.not_true, Bool.false_eq_true, if_false] at h
    cases hst : registration.state.status with
    | pending =>
      simp only [hst] at h
      cases h
      simp
    | waitingApproval =>
      simp only [hst] at h
      split_ifs at h with hstep
      · obtain ⟨_, -, h⟩ := except_bind_eq_ok.mp h
        obtain ⟨_, -, h⟩ := except_bind_eq_ok.mp h
        cases h
        exact ⟨nofun, fun _ _ _ => ⟨rfl, fun _ => ⟨hst, hstep⟩⟩⟩
      · obtain ⟨_, -, h⟩ := except_bind_eq_ok.mp h
        cases h
        simp
    | _ =>
      simp only [hst] at h
      obtain ⟨_, -, h⟩ := except_bind_eq_ok.mp h
      cases h
      simp

/-! ## The calls of a run -/

open ReminderStores InMemoryWorkflowStateStore

variable {s s' : ReminderStores platform} {kept : Set String} {state : WorkflowState}

/-- A first registration writes where nothing stands, or replays. -/
theorem follows_register {now : Instant} {r : Except PyError WorkflowStateRegistration}
    (drafts : s.HasDrafts) (running : state.status = .running) (own : state.workflowId ∉ kept)
    (h : onStates (registerOrReplay principal state none now) s = (r, s')) :
    s'.HasDrafts ∧ Follows kept s s' ∧
      (∀ k, k ≠ (principal.tenantId, state.idempotencyKey) →
        s'.states.statesByKey.get? k = s.states.statesByKey.get? k) ∧
      ∀ registration, r = .ok registration →
        s'.states.statesByKey.get? (principal.tenantId, state.idempotencyKey) = some registration.state ∧
          registration.state.payloadFingerprint = state.payloadFingerprint ∧
          (registration.replayed = true ∧ s' = s ∨ registration.replayed = false ∧ registration.state = state) := by
  obtain ⟨states, hrun, rfl⟩ := Op.zoom_cases h
  obtain ⟨e, rfl, rfl⟩ | ⟨-, -, ⟨existing, hk, hfp, -, ⟨-, rfl, rfl⟩ | ⟨hres, -, -⟩⟩ | ⟨hk, -, rfl, rfl⟩⟩ :=
    registerOrReplay_cases hrun
  · exact ⟨drafts, .refl s, fun _ _ => rfl, by simp⟩
  · refine ⟨drafts, .refl s, fun _ _ => rfl, fun registration hr => ?_⟩
    cases hr
    exact ⟨hk, hfp, .inl ⟨rfl, rfl⟩⟩
  · simp [resumable] at hres
  · refine ⟨drafts.set (fun hst => ?_) (by simp [running]), .set (fun st hst => ?_) fun _ => own,
      fun k hne => Dict.get?_set_of_ne _ _ hne, fun registration hr => ?_⟩
    · have hwaiting := running.symm.trans hst.1
      cases hwaiting
    · cases hk.symm.trans hst
    · cases hr
      exact ⟨Dict.get?_set_self .., rfl, .inr ⟨rfl, rfl⟩⟩

/-- An upsert over one's own running state. -/
theorem follows_upsert {r : Except PyError WorkflowState} {st : WorkflowState} (drafts : s.HasDrafts)
    (hk : s.states.statesByKey.get? (principal.tenantId, state.idempotencyKey) = some st)
    (hst : st.status = .running) (hid : st.workflowId ∉ kept)
    (hwaiting : state.status = .waitingApproval)
    (hstate : state.Awaiting → ∃ d, ReminderDraft.fromMapping platform state.data = .ok d)
    (h : onStates (upsert platform principal state) s = (r, s')) :
    s'.HasDrafts ∧ Follows kept s s' ∧
      (∀ k, k ≠ (principal.tenantId, state.idempotencyKey) →
        s'.states.statesByKey.get? k = s.states.statesByKey.get? k) ∧
      ∀ stored, r = .ok stored →
        s'.states.statesByKey.get? (principal.tenantId, state.idempotencyKey) = some state := by
  obtain ⟨states, hrun, rfl⟩ := Op.zoom_cases h
  obtain ⟨e, rfl, rfl⟩ | ⟨-, -, -, -, rfl, rfl⟩ := upsert_cases hrun
  · exact ⟨drafts, .refl s, fun _ _ => rfl, by simp⟩
  · refine ⟨drafts.set hstate (by simp [hwaiting]), .set (fun st' hst' => ?_) fun hrunning => ?_,
      fun k hne => Dict.get?_set_of_ne _ _ hne, fun stored _ => Dict.get?_set_self ..⟩
    · cases hk.symm.trans hst'
      exact ⟨hst, hid⟩
    · cases hwaiting.symm.trans hrunning

/-- What a run with a grant knows when it opens its transaction: the state still waits with the draft it
works with, or it has been completed. -/
def Prepared (s : ReminderStores platform) (k : Key) (extraction : Option (ReminderExtraction platform)) :
    Prop :=
  (∃ st d, s.states.statesByKey.get? k = some st ∧ st.Awaiting ∧
      ReminderDraft.fromMapping platform st.data = .ok d ∧ extraction = some d) ∨
    ∃ st, s.states.statesByKey.get? k = some st ∧ st.status = .completed

theorem Prepared.follows {k : Key} {extraction : Option (ReminderExtraction platform)}
    (h : Prepared s k extraction) (hs : Follows kept s s') : Prepared s' k extraction := by
  obtain ⟨st, d, hk, hst, hd, hx⟩ | ⟨st, hk, hst⟩ := h
  · obtain hk' | ⟨st', e, hk', hst', -⟩ := hs.awaiting k st d hk hst hd
    · exact .inl ⟨st, d, hk', hst, hd, hx⟩
    · exact .inr ⟨st', hk', hst'⟩
  · exact .inr ⟨st, (hs.completed k st hk hst).1, hst⟩

namespace ApprovedRun

variable {run : ApprovedRun platform} {env : Surroundings} {r : Except PyError BlockResult}

/-- The registration of a prepared run resumes the waiting state or replays the completed one. -/
theorem register_of_prepared {registration : WorkflowStateRegistration} {states : InMemoryWorkflowStateStore}
    (proper : run.Proper D) (prepared : Prepared s (principal.tenantId, run.key) run.extraction)
    (register : run.Registers env principal s.states registration states) :
    (∃ st d, s.states.statesByKey.get? (principal.tenantId, run.key) = some st ∧ st.Awaiting ∧
        ReminderDraft.fromMapping platform st.data = .ok d ∧ run.extraction = some d ∧
        registration = ⟨st.transition .running none [] env.registeredAt, false, true⟩ ∧
        states = s.states.setState (principal.tenantId, run.key)
          (st.transition .running none [] env.registeredAt)) ∨
      states = s.states ∧ registration.replayed = true ∧ registration.state.status = .completed := by
  have hkey := proper.key
  obtain ⟨e, he, -⟩ | ⟨-, -, ⟨existing, hk, -, -, ⟨hres, hr, rfl⟩ | ⟨hres, hr, rfl⟩⟩ | ⟨hk, -, -, -⟩⟩ :=
    registerOrReplay_cases register
  · cases he
  · rw [hkey] at hk
    cases hr
    obtain ⟨st, d, hst, hawaiting, -⟩ | ⟨st, hst, hcompleted⟩ := prepared
    · cases hk.symm.trans hst
      simp [resumable, hawaiting.1, hawaiting.2] at hres
    · cases hk.symm.trans hst
      exact .inr ⟨rfl, rfl, hcompleted⟩
  · rw [hkey] at hk ⊢
    cases hr
    obtain ⟨st, d, hst, hawaiting, hd, hx⟩ | ⟨st, hst, hcompleted⟩ := prepared
    · cases hk.symm.trans hst
      exact .inl ⟨existing, d, hst, hawaiting, hd, hx, rfl, rfl⟩
    · cases hk.symm.trans hst
      simp [resumable, hcompleted] at hres
  · rw [hkey] at hk
    obtain ⟨st, d, hst, -⟩ | ⟨st, hst, -⟩ := prepared
    · cases hk.symm.trans hst
    · cases hk.symm.trans hst

/-- The replay of a completed state ends the block. -/
theorem not_fresh_of_completed {registration : WorkflowStateRegistration}
    (hreplayed : registration.replayed = true) (hstatus : registration.state.status = .completed) :
    run.registrationResult env registration ≠ .ok none := by
  intro fresh
  obtain h | h := replayed_eq_false_or_pending fresh
  · rw [hreplayed] at h
    cases h
  · rw [hstatus] at h
    cases h

/-- A creation completes the waiting state, and the calendar shows its draft. -/
theorem follows_created {st : WorkflowState} {d : ReminderDraft platform}
    {event : CalendarEventResult}
    (hst : s.states.statesByKey.get? (principal.tenantId, run.key) = some st) (hawaiting : st.Awaiting)
    (hd : ReminderDraft.fromMapping platform st.data = .ok d)
    (hother : ∀ k, k ≠ (principal.tenantId, run.key) →
      s'.states.statesByKey.get? k = s.states.statesByKey.get? k)
    (hself : ∃ completed, s'.states.statesByKey.get? (principal.tenantId, run.key) = some completed ∧
      completed.status = .completed ∧ completed.payloadFingerprint = st.payloadFingerprint)
    (drafts : s.HasDrafts)
    (hcalendar : s'.calendar.eventsByKey =
      s.calendar.eventsByKey.set (principal.tenantId, run.key ++ ":calendar") event)
    (hshown : d.ShownBy event) : s'.HasDrafts ∧ Follows kept s s' := by
  obtain ⟨completed, hself, hcompleted, hfingerprint⟩ := hself
  have hwaiting : st.status = .waitingApproval := hawaiting.1
  have hne : ∀ k st', s.states.statesByKey.get? k = some st' → st'.status ≠ .waitingApproval →
      k ≠ (principal.tenantId, run.key) := by
    rintro k st' hk hstatus rfl
    cases hst.symm.trans hk
    exact hstatus hwaiting
  have hevent : ∀ k, k ≠ (principal.tenantId, run.key) → s'.eventOf k = s.eventOf k := by
    intro k hk
    rw [eventOf, eventOf, hcalendar, Dict.get?_set_of_ne]
    exact fun he => hk (by simpa [Prod.ext_iff] using he)
  refine ⟨⟨fun k st' hk hst' => ?_, fun k st' hk => ?_⟩, fun k st' hk hst' => ?_,
    fun k st' d' hk hst' hd' => ?_, fun k st' hk hst' _ => ?_, fun k st' hk hst' _ => ?_⟩
  · by_cases hkey : k = (principal.tenantId, run.key)
    · subst hkey
      cases hself.symm.trans hk
      rw [WorkflowState.Awaiting, hcompleted] at hst'
      cases hst'.1
    · exact drafts.draft k st' ((hother k hkey).symm.trans hk) hst'
  · by_cases hkey : k = (principal.tenantId, run.key)
    · subst hkey
      cases hself.symm.trans hk
      simp [hcompleted]
    · exact drafts.pending k st' ((hother k hkey).symm.trans hk)
  · have hkey := hne k st' hk (by simp [hst'])
    exact ⟨(hother k hkey).trans hk, hevent k hkey⟩
  · by_cases hkey : k = (principal.tenantId, run.key)
    · subst hkey
      cases hst.symm.trans hk
      cases hd.symm.trans hd'
      refine .inr ⟨completed, event, hself, hcompleted, hfingerprint, ?_, hshown⟩
      rw [eventOf, hcalendar]
      exact Dict.get?_set_self ..
    · exact .inl ((hother k hkey).trans hk)
  · exact (hother k (hne k st' hk (by simp [hst']))).trans hk
  · by_cases hkey : k = (principal.tenantId, run.key)
    · subst hkey
      cases hself.symm.trans hk
      cases hcompleted.symm.trans hst'
    · exact (hother k hkey).symm.trans hk

theorem follows_of_outcome (proper : run.Proper D) (inv : s.EffectInv D) (drafts : s.HasDrafts)
    (prepared : Prepared s (principal.tenantId, run.key) run.extraction)
    (h : run.Outcome env principal s r s') : s'.HasDrafts ∧ Follows kept s s' := by
  cases h with
  | aborted e => exact ⟨drafts, .refl s⟩
  | replayed register reply =>
    obtain ⟨st, d, -, -, -, -, rfl, -⟩ | ⟨rfl, -⟩ := register_of_prepared proper prepared register
    · -- a resumed state is not replayed
      obtain ⟨replay, hreplay, hreply⟩ := except_bind_eq_ok.mp reply
      cases hreplay
      cases hreply
    · exact ⟨drafts, .refl _⟩
  | clarified register fresh undated upsert =>
    obtain ⟨st, d, -, -, -, hx, -⟩ | ⟨-, hreplayed, hstatus⟩ := register_of_prepared proper prepared register
    · rw [undated] at hx
      cases hx
    · exact absurd fresh (not_fresh_of_completed hreplayed hstatus)
  | created register fresh dated request_eq createEvent schedule created_eq append requested_eq add upsert =>
    have ho : run.Outcome env principal s _ _ := .created register fresh dated request_eq createEvent
      schedule created_eq append requested_eq add upsert
    obtain ⟨st, d, hst, hawaiting, hd, hx, rfl, rfl⟩ | ⟨-, hreplayed, hstatus⟩ :=
      register_of_prepared proper prepared register
    · obtain ⟨extraction', created', message', hx', hc⟩ := ho.created_spec proper inv
      cases hx.symm.trans hx'
      have hkey : st.idempotencyKey = run.key := inv.owned.states _ st hst
      obtain ⟨e, he, -⟩ | ⟨-, -, -, -, -, rfl⟩ := upsert_cases upsert
      · cases he
      have hfinal : ∀ data, ((st.transition .running none [] env.registeredAt).transition .completed
          (some ReminderWorkflowStep.completed) data env.transitionedAt).idempotencyKey = run.key :=
        fun _ => hkey
      refine follows_created hst hawaiting hd (fun k hk => ?_) ?_ drafts hc.calendar ?_
      · simp only [hfinal, Dict.get?_set_of_ne _ _ hk]
        exact Dict.get?_set_of_ne _ _ hk
      · simp only [hfinal]
        exact ⟨_, Dict.get?_set_self .., rfl, rfl⟩
      · rw [hc.event_eq]
        exact ⟨rfl, rfl, rfl⟩
    · exact absurd fresh (not_fresh_of_completed hreplayed hstatus)

end ApprovedRun

end PersonalAssistant
