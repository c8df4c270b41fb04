import PersonalAssistant.Lib.Index
import PersonalAssistant.Lib.Runs
import PersonalAssistant.Stores.WorkflowStates

/-!
# The workflow registry

Histories of registrations and upserts by any principals. Idempotency keys and workflow identifiers
correspond one to one, what a state was registered with never changes, a terminal state never changes at
all, and at most one caller is elected for a key.
-/
namespace PersonalAssistant

open Lib InMemoryOutbox

variable {platform : Platform}

/-- A call that may write. -/
inductive RegistryCall where
  | registerOrReplay (principal : Principal) (state : WorkflowState) (resumeFromStep : Option String)
      (now : Instant)
  | upsert (principal : Principal) (state : WorkflowState)

inductive RegistryAnswer where
  | registered (registration : WorkflowStateRegistration)
  | stored (state : WorkflowState)

namespace RegistryCall

def state : RegistryCall → WorkflowState
  | registerOrReplay _ state _ _ => state
  | upsert _ state => state

def principal : RegistryCall → Principal
  | registerOrReplay principal _ _ _ => principal
  | upsert principal _ => principal

/-- Where the state of a call stands. -/
def key (c : RegistryCall) : Key := (c.principal.tenantId, c.state.idempotencyKey)

def run (platform : Platform) : RegistryCall → InMemoryWorkflowStateStore.Method RegistryAnswer
  | registerOrReplay principal state resumeFromStep now => do
    let registration ← InMemoryWorkflowStateStore.registerOrReplay principal state resumeFromStep now
    return .registered registration
  | upsert principal state => do
    let stored ← InMemoryWorkflowStateStore.upsert platform principal state
    return .stored stored

/-- The call was elected: a registration that is neither replayed nor resumed. -/
def isFresh (k : Key) : RegistryCall × Except PyError RegistryAnswer → Bool
  | (c, .ok (.registered registration)) =>
    c.key = k && !registration.replayed && !registration.resumed
  | _ => false

end RegistryCall

/-! ## What one call can do -/

/-- Identity and payload fingerprint of a state, and all of it once terminal. -/
structure WorkflowState.Continues (state state' : WorkflowState) : Prop where
  workflowId : state'.workflowId = state.workflowId
  workflowType : state'.workflowType = state.workflowType
  payloadFingerprint : state'.payloadFingerprint = state.payloadFingerprint
  terminal : state.status.isTerminal = true → state' = state

namespace WorkflowState.Continues

variable {a b c : WorkflowState}

theorem refl (a : WorkflowState) : a.Continues a := ⟨rfl, rfl, rfl, fun _ => rfl⟩

theorem trans (h : a.Continues b) (g : b.Continues c) : a.Continues c where
  workflowId := g.workflowId.trans h.workflowId
  workflowType := g.workflowType.trans h.workflowType
  payloadFingerprint := g.payloadFingerprint.trans h.payloadFingerprint
  terminal ht := by
    obtain rfl := h.terminal ht
    exact g.terminal ht

end WorkflowState.Continues

theorem WorkflowStatus.value_injective : Function.Injective WorkflowStatus.value := by
  intro a b h
  cases a <;> cases b <;> first | rfl | exact absurd h (by decide)

theorem WorkflowState.json_injective : Function.Injective WorkflowState.json := by
  intro a b h
  obtain ⟨a₁, a₂, a₃, a₄, a₅, a₆, a₇, a₈, a₉, a₁₀⟩ := a
  obtain ⟨b₁, b₂, b₃, b₄, b₅, b₆, b₇, b₈, b₉, b₁₀⟩ := b
  simp only [WorkflowState.json, Json.obj.injEq, List.cons.injEq, Prod.mk.injEq, true_and,
    Json.str.injEq, and_true, Instant.json_injective.eq_iff, WorkflowStatus.value_injective.eq_iff,
    CloudEvent.textJson_injective.eq_iff] at h
  obtain ⟨rfl, rfl, rfl, rfl, rfl, rfl, rfl, rfl, rfl, rfl⟩ := h
  rfl

namespace InMemoryWorkflowStateStore

/-- The identifier index lists exactly the stored states, which stand under their own key. -/
structure Indexed (s : InMemoryWorkflowStateStore) : Prop where
  own : ∀ k state, s.statesByKey.get? k = some state →
    state.tenantId = k.1 ∧ state.idempotencyKey = k.2
  index : Indexes s.keyByWorkflowId s.statesByKey WorkflowState.workflowId

/-- Stored states are still stored and continue as they must. -/
def Kept (s s' : InMemoryWorkflowStateStore) : Prop :=
  ∀ k state, s.statesByKey.get? k = some state →
    ∃ state', s'.statesByKey.get? k = some state' ∧ state.Continues state'

variable {s s' : InMemoryWorkflowStateStore} {H : Set String}

/-- The dump of every terminal state is among the hashed texts. -/
def TerminalHashed (H : Set String) (s : InMemoryWorkflowStateStore) : Prop :=
  ∀ k state, s.statesByKey.get? k = some state → state.status.isTerminal = true →
    jsonText state.json ∈ H

theorem Kept.refl (s : InMemoryWorkflowStateStore) : s.Kept s :=
  fun _ state h => ⟨state, h, .refl state⟩

theorem Kept.trans {t : InMemoryWorkflowStateStore} (h : s.Kept s') (g : s'.Kept t) : s.Kept t := by
  intro k state hk
  obtain ⟨state', hk', hc'⟩ := h k state hk
  obtain ⟨state'', hk'', hc''⟩ := g k state' hk'
  exact ⟨state'', hk'', hc'.trans hc''⟩

/-- Writing one state that continues the one it replaces, if any. -/
theorem Kept.set {k : Key} {state : WorkflowState} {ids : Dict Key String}
    (h : ∀ existing, s.statesByKey.get? k = some existing → existing.Continues state) :
    s.Kept ⟨s.statesByKey.set k state, ids⟩ := by
  intro j old hj
  by_cases hjk : j = k
  · subst hjk
    exact ⟨state, by simp, h old hj⟩
  · exact ⟨old, by simpa [hjk] using hj, .refl old⟩

/-- Writing a state under its own key, when no other key has its identifier and the key has no other
identifier, keeps the index. -/
theorem Indexed.set {tenantId : String} {state : WorkflowState} (h : s.Indexed)
    (ht : state.tenantId = tenantId)
    (free : takenByOther s.keyByWorkflowId (tenantId, state.workflowId) state.idempotencyKey = false)
    (same : ∀ existing, s.statesByKey.get? (tenantId, state.idempotencyKey) = some existing →
      existing.workflowId = state.workflowId) :
    Indexed ⟨s.statesByKey.set (tenantId, state.idempotencyKey) state,
      s.keyByWorkflowId.set (tenantId, state.workflowId) state.idempotencyKey⟩ := by
  refine ⟨fun k st hk => ?_, h.index.set (takenByOther_eq_false.mp free) same⟩
  rw [Dict.get?_set] at hk
  split_ifs at hk with hkey
  · cases hk
    rw [hkey]
    exact ⟨ht, rfl⟩
  · exact h.own k st hk

/-- A transition of a stored state keeps the index. -/
theorem Indexed.setState {k : Key} {existing state : WorkflowState} (h : s.Indexed)
    (hk : s.statesByKey.get? k = some existing) (ht : state.tenantId = existing.tenantId)
    (hkey : state.idempotencyKey = existing.idempotencyKey)
    (hid : state.workflowId = existing.workflowId) : (s.setState k state).Indexed := by
  refine ⟨fun j st hj => ?_, h.index.rewrite fun j => ?_⟩
  · simp only [InMemoryWorkflowStateStore.setState, Dict.get?_set] at hj
    split_ifs at hj with hjk
    · cases hj
      rw [hjk, ht, hkey]
      exact h.own k existing hk
    · exact h.own j st hj
  · simp only [InMemoryWorkflowStateStore.setState, Dict.get?_set]
    split_ifs with hjk
    · simp [hjk, hk, hid]
    · rfl

end InMemoryWorkflowStateStore

/-! ## Histories -/

namespace RegistryCall

open InMemoryWorkflowStateStore

variable {H : Set String} {s s' : InMemoryWorkflowStateStore} {c : RegistryCall}

/-- A call raised, replayed, resumed a waiting state, or wrote its own state under its key. -/
theorem run_cases {r : Except PyError RegistryAnswer} (h : c.run platform s = (r, s')) :
    (∃ e, r = .error e ∧ s' = s) ∨
    (∃ existing, r = .ok (.registered ⟨existing, true, false⟩) ∧ s' = s) ∨
    (∃ existing now, s.statesByKey.get? c.key = some existing ∧ existing.status = .waitingApproval ∧
      r = .ok (.registered ⟨existing.transition .running none [] now, false, true⟩) ∧
      s' = s.setState c.key (existing.transition .running none [] now)) ∨
    (c.state.tenantId = c.principal.tenantId ∧
      takenByOther s.keyByWorkflowId (c.principal.tenantId, c.state.workflowId)
        c.state.idempotencyKey = false ∧
      ((s.statesByKey.get? c.key = none ∧ r = .ok (.registered ⟨c.state, false, false⟩)) ∨
        ((∀ existing, s.statesByKey.get? c.key = some existing →
            requireReplaceable platform c.principal existing c.state = .ok ()) ∧
          r = .ok (.stored c.state))) ∧
      s' = {
        statesByKey := s.statesByKey.set c.key c.state
        keyByWorkflowId := s.keyByWorkflowId.set (c.principal.tenantId, c.state.workflowId)
          c.state.idempotencyKey }) := by
  cases c with
  | registerOrReplay principal state resumeFromStep now =>
    rcases hrun : InMemoryWorkflowStateStore.registerOrReplay principal state resumeFromStep now s
      with ⟨r', t⟩
    have hcases := registerOrReplay_cases hrun
    cases r' with
    | error e =>
      rw [run, Op.bind_error hrun] at h
      cases h
      obtain ⟨_, -, rfl⟩ | ⟨-, -, ⟨_, -, -, -, ⟨-, h, -⟩ | ⟨-, h, -⟩⟩ | ⟨-, -, h, -⟩⟩ := hcases
      · exact .inl ⟨e, rfl, rfl⟩
      all_goals cases h
    | ok registration =>
      rw [run, Op.bind_ok hrun] at h
      cases h
      obtain ⟨_, h, -⟩ | ⟨-, ht, ⟨existing, hk, -, -, ⟨-, h, rfl⟩ | ⟨hres, h, rfl⟩⟩ |
        ⟨hk, hfree, h, rfl⟩⟩ := hcases
      · cases h
      · cases h
        exact .inr (.inl ⟨existing, rfl, rfl⟩)
      · cases h
        simp only [resumable, Bool.and_eq_true, decide_eq_true_eq] at hres
        exact .inr (.inr (.inl ⟨existing, now, hk, hres.1.2, rfl, rfl⟩))
      · cases h
        exact .inr (.inr (.inr ⟨ht, hfree, .inl ⟨hk, rfl⟩, rfl⟩))
  | upsert principal state =>
    rcases hrun : InMemoryWorkflowStateStore.upsert platform principal state s with ⟨r', t⟩
    have hcases := upsert_cases hrun
    cases r' with
    | error e =>
      rw [run, Op.bind_error hrun] at h
      cases h
      obtain ⟨_, -, rfl⟩ | ⟨-, -, -, -, h, -⟩ := hcases
      · exact .inl ⟨e, rfl, rfl⟩
      · cases h
    | ok stored =>
      rw [run, Op.bind_ok hrun] at h
      cases h
      obtain ⟨_, h, -⟩ | ⟨-, ht, hfree, hrep, h, rfl⟩ := hcases
      · cases h
      · cases h
        exact .inr (.inr (.inr ⟨ht, hfree, .inr ⟨hrep, rfl⟩, rfl⟩))

/-- What one call keeps. Without a collision the equal dump of a terminal state is the state itself. -/
theorem spec (free : Set.InjOn platform.sha256 H) (hs : jsonText c.state.json ∈ H)
    (indexed : s.Indexed) (hashed : s.TerminalHashed H) :
    (c.run platform s).2.Indexed ∧ (c.run platform s).2.TerminalHashed H ∧
      s.Kept (c.run platform s).2 := by
  rcases hrun : c.run platform s with ⟨r, t⟩
  obtain ⟨e, -, rfl⟩ | ⟨existing, -, rfl⟩ | ⟨existing, now, hk, hwait, -, rfl⟩ |
    ⟨ht, hfree, hold, rfl⟩ := run_cases hrun
  · exact ⟨indexed, hashed, .refl t⟩
  · exact ⟨indexed, hashed, .refl t⟩
  · refine ⟨indexed.setState hk rfl rfl rfl, ?_, Kept.set fun old hget => ?_⟩
    · intro k st hst hterm
      simp only [setState, Dict.get?_set] at hst
      split_ifs at hst
      · cases hst
        simp [WorkflowState.transition, WorkflowStatus.isTerminal] at hterm
      · exact hashed k st hst hterm
    · cases hk.symm.trans hget
      exact ⟨rfl, rfl, rfl, fun hterm => by simp [hwait, WorkflowStatus.isTerminal] at hterm⟩
  · have hcontinues : ∀ old, s.statesByKey.get? c.key = some old → old.Continues c.state := by
      intro old hget
      obtain ⟨hnone, -⟩ | ⟨hrep, -⟩ := hold
      · cases hnone.symm.trans hget
      obtain ⟨hid, htype, hfp, hterm⟩ := requireReplaceable_eq_ok (hrep old hget)
      refine ⟨hid.symm, htype.symm, hfp.symm, fun hfinal => ?_⟩
      have hdump := free hs (hashed _ old hget hfinal) (hterm hfinal).2
      exact WorkflowState.json_injective (jsonText_injective hdump)
    refine ⟨indexed.set ht hfree fun old hget => (hcontinues old hget).workflowId.symm, ?_,
      Kept.set hcontinues⟩
    intro k st hst hterm
    simp only [Dict.get?_set] at hst
    split_ifs at hst
    · cases hst; exact hs
    · exact hashed k st hst hterm

/-- A call that raises changes nothing. -/
theorem run_of_error {e : PyError} (h : (c.run platform s).1 = .error e) :
    (c.run platform s).2 = s := by
  rcases hrun : c.run platform s with ⟨r, t⟩
  rw [hrun] at h
  obtain ⟨_, -, rfl⟩ | ⟨_, hr, -⟩ | ⟨_, _, -, -, hr, -⟩ | ⟨-, -, ⟨-, hr⟩ | ⟨-, hr⟩, -⟩ :=
    run_cases hrun
  · rfl
  all_goals cases hr.symm.trans h

/-- A stored key stays stored. -/
theorem run_isSome {k : Key} (c : RegistryCall) (h : (s.statesByKey.get? k).isSome) :
    ((c.run platform s).2.statesByKey.get? k).isSome := by
  rcases hrun : c.run platform s with ⟨r, t⟩
  obtain ⟨_, -, rfl⟩ | ⟨_, -, rfl⟩ | ⟨_, _, -, -, -, rfl⟩ | ⟨-, -, -, rfl⟩ := run_cases hrun
  · exact h
  · exact h
  all_goals
    simp only [setState, Dict.get?_set]
    split_ifs <;> simp [h]

/-- An elected call found its key absent and stored it. -/
theorem isFresh_spec {k : Key} (h : isFresh k (c, (c.run platform s).1) = true) :
    s.statesByKey.get? k = none ∧ ((c.run platform s).2.statesByKey.get? k).isSome := by
  rcases hrun : c.run platform s with ⟨r, t⟩
  rw [hrun] at h
  obtain ⟨_, rfl, -⟩ | ⟨_, rfl, -⟩ | ⟨_, _, -, -, rfl, -⟩ | ⟨-, -, ⟨hk, rfl⟩ | ⟨-, rfl⟩, rfl⟩ :=
    run_cases hrun
  case inr.inr.inr.inl =>
    simp only [isFresh, Bool.and_eq_true, decide_eq_true_eq] at h
    obtain ⟨⟨rfl, -⟩, -⟩ := h
    exact ⟨hk, by simp⟩
  all_goals simp [isFresh] at h

end RegistryCall

namespace InMemoryWorkflowStateStore

theorem indexed_empty : empty.Indexed := by
  refine ⟨fun k state h => ?_, .empty _⟩
  cases h

/-- The registry after any history of calls: identifiers and keys correspond one to one, stored states
keep their identity through any further calls and terminal ones keep everything, at most one call was
elected per key, a resumed registration took over a state waiting at the requested step, and a call that
raises changes nothing. -/
theorem registry_integrity {H : Set String} (free : Set.InjOn platform.sha256 H)
    {calls later : List RegistryCall}
    (hashed : ∀ c ∈ calls ++ later, jsonText c.state.json ∈ H) :
    let s := after (RegistryCall.run platform) .empty calls
    (s.Indexed ∧ ∀ tenantId key key' state state',
      s.statesByKey.get? (tenantId, key) = some state →
      s.statesByKey.get? (tenantId, key') = some state' →
      (state.workflowId = state'.workflowId ↔ key = key')) ∧
    s.Kept (after (RegistryCall.run platform) s later) ∧
    (∀ k, (history (RegistryCall.run platform) .empty calls).countP (RegistryCall.isFresh k) ≤ 1) ∧
    (∀ principal state resumeFromStep now registration s',
      registerOrReplay principal state resumeFromStep now s = (.ok registration, s') →
      registration.resumed = true →
      registration.state.status = .running ∧
        s'.statesByKey.get? (principal.tenantId, state.idempotencyKey) = some registration.state ∧
        ∃ existing, s.statesByKey.get? (principal.tenantId, state.idempotencyKey) = some existing ∧
          existing.status = .waitingApproval ∧ resumeFromStep = some existing.step) ∧
    ∀ (c : RegistryCall) e, (c.run platform s).1 = .error e → (c.run platform s).2 = s := by
  intro s
  have hstep : ∀ (c : RegistryCall) t, jsonText c.state.json ∈ H →
      t.Indexed ∧ t.TerminalHashed H →
      ((c.run platform t).2.Indexed ∧ (c.run platform t).2.TerminalHashed H) ∧
        t.Kept (c.run platform t).2 := by
    intro c t hc ⟨hindexed, hterm⟩
    obtain ⟨h₁, h₂, h₃⟩ := RegistryCall.spec free hc hindexed hterm
    exact ⟨⟨h₁, h₂⟩, h₃⟩
  obtain ⟨indexed, terminal⟩ : s.Indexed ∧ s.TerminalHashed H :=
    after_inv _ _ (fun c t hc ht => (hstep c t hc ht).1) ⟨indexed_empty, fun k state h => by cases h⟩
      fun c hc => hashed c (by simp [hc])
  refine ⟨⟨indexed, fun tenantId key key' state state' h h' => ⟨fun hid => ?_, fun hk => ?_⟩⟩,
    ?_, fun k => ?_, ?_, fun c e => RegistryCall.run_of_error⟩
  · exact indexed.index.eq_of_attribute h h' hid
  · subst hk
    cases h.symm.trans h'
    rfl
  · exact after_rel Kept.refl (fun _ _ _ => Kept.trans) hstep ⟨indexed, terminal⟩
      fun c hc => hashed c (by simp [hc])
  · -- the key is stored from the first election on
    refine countP_history_le_one (fun t => (t.statesByKey.get? k).isSome) ?_ ?_ ?_ _ _
    · intro c t h
      exact (RegistryCall.isFresh_spec h).2
    · intro c t h
      exact c.run_isSome h
    · intro c t h
      by_contra hfresh
      have hnone := (RegistryCall.isFresh_spec (Bool.not_eq_false _ ▸ hfresh)).1
      simp [hnone] at h
  · intro principal state resumeFromStep now registration s' hrun hres
    obtain ⟨_, h, -⟩ | ⟨-, -, ⟨existing, hk, -, -, ⟨-, h, -⟩ | ⟨hresumable, h, rfl⟩⟩ | ⟨-, -, h, -⟩⟩ :=
      registerOrReplay_cases hrun
    · cases h
    · cases h; simp at hres
    · cases h
      simp only [resumable, Bool.and_eq_true, decide_eq_true_eq] at hresumable
      exact ⟨rfl, by simp [setState], existing, hk, hresumable.1.2, hresumable.2⟩
    · cases h; simp at hres

/-! ### A registered and completed state -/

def sampleWorkflowState (status : WorkflowStatus) : WorkflowState where
  workflowId := "wf_1"
  tenantId := "tenant-1"
  workflowType := "reminder.create"
  status := status
  step := "classify"
  idempotencyKey := "key-1"
  payloadFingerprint := some "32e80655cc29862cfaff8f8cde5220c5708cf5fe618369950d2cc5ed4b9cc890"
  data := []
  createdAt := ⟨0, Nat.zero_le _⟩
  updatedAt := ⟨0, Nat.zero_le _⟩

def sampleStateDigests : List (String × Digest) :=
  [(jsonText (sampleWorkflowState .running).json,
      .ofNat 0xdbdb2cb2c1616ba63ad8ef240d6b9d2e60d3b6d30abc65a0b70d5bdc138cb14c),
    (jsonText (sampleWorkflowState .completed).json,
      .ofNat 0xde8766146d5a5cd07b2b8ccfd9f24be01b76e64d30592a9827c609428f812380)]

def sampleStatePlatform : Platform := .ofTable sampleStateDigests

def sampleRegister : RegistryCall :=
  .registerOrReplay .sample (sampleWorkflowState .running) none ⟨0, Nat.zero_le _⟩

def sampleComplete : RegistryCall := .upsert .sample (sampleWorkflowState .completed)

theorem completed_sample_is_kept :
    (after (RegistryCall.run sampleStatePlatform) .empty [sampleRegister, sampleComplete]).Kept
      (after (RegistryCall.run sampleStatePlatform)
        (after (RegistryCall.run sampleStatePlatform) .empty [sampleRegister, sampleComplete])
        [sampleRegister]) := by
  have hdigests : (sampleStateDigests.map Prod.snd).Nodup :=
    @Digest.nodup_ofNat [_, _] (by decide +kernel)
  refine (registry_integrity (Platform.injOn_ofTable hdigests) ?_).2.1
  intro c hc
  have hcalls : c = sampleRegister ∨ c = sampleComplete := by
    simp only [List.cons_append, List.nil_append, List.mem_cons, List.not_mem_nil, or_false] at hc
    tauto
  obtain rfl | rfl := hcalls
  · exact List.mem_cons_self
  · exact List.mem_cons_of_mem _ List.mem_cons_self

end InMemoryWorkflowStateStore

end PersonalAssistant
