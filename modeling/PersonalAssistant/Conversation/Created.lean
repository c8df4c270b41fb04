import Mathlib
import PersonalAssistant.Conversation.Creating

/-!
# What was approved is what is created

A record is only kept for a workflow state that waits with a draft, and only the approved run of the state
completes it. Whatever the language model answers in between, and whichever turns run, the calendar shows
the draft the approval was asked for. What a turn had registered when it raised stays running for good.
-/
namespace PersonalAssistant

open Lib Program InMemoryOutbox ReminderIdempotencyIdentity ConversationCommandService ReminderStores

variable {platform : Platform} {s s' : ConversationStores platform}

/-! ## Any turns in any order -/

namespace ConversationTurn

variable {ι : Type} [DecidableEq ι] {turns : ι → ConversationTurn platform} {V : ι → Set Uuid}
  {p q : ConversationPool platform ι}

/-- Turn `i` draws its identifiers from `V i`. -/
def drawing (platform : Platform) (V : ι → Set Uuid) :
    Semantics (conversationCalls platform) (ConversationStores platform) ι :=
  fun i c s r s' => ConversationCall.Effect c s r s' ∧ ConversationCall.Draws (V i) c r

omit [DecidableEq ι] in
/-- The identifiers of one turn are none of another's. -/
theorem moves_of_moves (fresh : Pairwise fun i j => Disjoint (V i) (V j)) (i j : ι) (hij : i ≠ j)
    (s s' : ConversationStores platform) (h : Moves (workflowIds (V i))ᶜ s s') :
    Moves (workflowIds (V j)) s s' := by
  refine h.mono ?_
  rintro _ ⟨u, hu, rfl⟩ ⟨v, hv, he⟩
  have huv : u = v := Uuid.hex_injective (String.append_right_inj _ |>.mp he)
  exact Set.disjoint_left.mp (fresh hij) (huv ▸ hv) hu

/-- The calls of a turn, where all turns keep the approval gate. -/
def kept (turns : ι → ConversationTurn platform) (V : ι → Set Uuid) :
    Semantics (conversationCalls platform) (ConversationStores platform) ι :=
  fun i => ConversationCall.Kept (identities turns) (slots turns) (V i)

/-- What is known of each turn at a point of a run. -/
abbrev CreatingPool (turns : ι → ConversationTurn platform) (V : ι → Set Uuid)
    (p : ConversationPool platform ι) : Prop :=
  Pool.Safe (kept turns V) Drafting (fun i => Moves (workflowIds (V i))) (fun i => Moves (workflowIds (V i))ᶜ)
    (fun i => OnOk (Answered (V i) (turns i).principal (turns i).message (turns i).now (turns i).timezone)) p

/-- Every run keeps the gate, and leaves each turn with what it knows. -/
theorem creatingPool_of_reaches (free : CollisionFree platform (identities turns))
    (distinct : ApprovalIdsDistinct platform (slots turns)) (normalizes : platform.Normalizes)
    (hreads : platform.ReadsDatetimes) (fresh : Pairwise fun i j => Disjoint (V i) (V j))
    (before : Pool.Reaches (drawing platform V) (pool turns .empty) p)
    (after : Pool.Reaches (drawing platform V) p q) :
    CreatingPool turns V p ∧ Pool.Reaches (kept turns V) p q := by
  have compat : ∀ i j : ι, i ≠ j → ∀ s s' : ConversationStores platform,
      Continues (identities turns) s s' → Continues (identities turns) s s' := fun _ _ _ _ _ h => h
  have hkept : ∀ i c s r s', (drawing platform V i c s r s' ∧ Gated platform (identities turns) (slots turns) s ∧
      Gated platform (identities turns) (slots turns) s' ∧ Continues (identities turns) s s') →
        kept turns V i c s r s' :=
    fun i c s r s' h => ⟨h.1.1, h.1.2, h.2.1, h.2.2.1, h.2.2.2⟩
  obtain ⟨before', gate⟩ := Pool.Safe.restrict (fun _ _ _ _ _ h => h.1) compat
    (pool_safe free distinct normalizes) before
  obtain ⟨after', -⟩ := Pool.Safe.restrict (fun _ _ _ _ _ h => h.1) compat gate after
  have safe : CreatingPool turns V (pool turns .empty) := by
    refine ⟨.empty, fun i => ⟨Settled (V i), stable_settled, fun k st hk => ?_, creating_handle hreads⟩⟩
    cases hk
  exact ⟨Pool.sound (moves_of_moves fresh) safe (before'.mono hkept), after'.mono hkept⟩

/-- In every interleaving, the state of a record waits with a draft or is completed; a draft it waits with
at some moment is the one the calendar shows when the state is completed later. -/
theorem approved_is_created (free : CollisionFree platform (identities turns))
    (distinct : ApprovalIdsDistinct platform (slots turns)) (normalizes : platform.Normalizes)
    (hreads : platform.ReadsDatetimes) (fresh : Pairwise fun i j => Disjoint (V i) (V j))
    (before : Pool.Reaches (drawing platform V) (pool turns .empty) p)
    (after : Pool.Reaches (drawing platform V) p q) :
    ∀ k a, p.state.approvals.approvalsById.get? k = some a →
      ∃ st, p.state.reminders.states.statesByKey.get? (k.1, a.idempotencyKey) = some st ∧
        st.payloadFingerprint = some a.payloadFingerprint ∧
        ((st.Awaiting ∧ ∃ d, ReminderDraft.fromMapping platform st.data = .ok d ∧
            (q.state.reminders.states.statesByKey.get? (k.1, a.idempotencyKey) = some st ∨
              ∃ st' e, q.state.reminders.states.statesByKey.get? (k.1, a.idempotencyKey) = some st' ∧
                st'.status = .completed ∧ q.state.reminders.eventOf (k.1, a.idempotencyKey) = some e ∧
                d.ShownBy e)) ∨
          st.status = .completed ∧
            q.state.reminders.states.statesByKey.get? (k.1, a.idempotencyKey) = some st ∧
            q.state.reminders.eventOf (k.1, a.idempotencyKey) =
              p.state.reminders.eventOf (k.1, a.idempotencyKey)) := by
  obtain ⟨safe, run⟩ := creatingPool_of_reaches free distinct normalizes hreads fresh before after
  have hmoves : Moves ∅ p.state q.state := Pool.guarantee_of_run (moves_of_moves fresh) Moves.refl
    (fun _ _ _ h g => h.trans g) (fun _ _ _ h => h.mono fun _ hid => hid.elim) safe run
  intro k a ha
  obtain ⟨st, hget, hfp, hwaiting | hcompleted⟩ := safe.1.ready k a ha
  · obtain ⟨d, hd⟩ := safe.1.drafts.draft _ st hget hwaiting
    refine ⟨st, hget, hfp, .inl ⟨hwaiting, d, hd, ?_⟩⟩
    obtain hsame | ⟨st', e, hget', hstatus, -, hevent, hshown⟩ := hmoves.follows.awaiting _ st d hget hwaiting hd
    · exact .inl hsame
    · exact .inr ⟨st', e, hget', hstatus, hevent, hshown⟩
  · exact ⟨st, hget, hfp, .inr ⟨hcompleted, hmoves.follows.completed _ st hget hcompleted⟩⟩

/-- A turn that has returned leaves no running state behind. What a turn had registered when it raised stays
running: no turn that runs later changes it. -/
theorem running_is_held (free : CollisionFree platform (identities turns))
    (distinct : ApprovalIdsDistinct platform (slots turns)) (normalizes : platform.Normalizes)
    (hreads : platform.ReadsDatetimes) (fresh : Pairwise fun i j => Disjoint (V i) (V j))
    (before : Pool.Reaches (drawing platform V) (pool turns .empty) p)
    (after : Pool.Reaches (drawing platform V) p q) (i : ι) :
    (∀ r, p.threads i = .ret r → ∀ k st, p.state.reminders.states.statesByKey.get? k = some st →
      st.status = .running → st.workflowId ∉ workflowIds (V i)) ∧
    ∀ e, p.threads i = .raise e → ∀ k st, p.state.reminders.states.statesByKey.get? k = some st →
      st.status = .running → st.workflowId ∈ workflowIds (V i) →
      q.threads i = .raise e ∧ q.state.reminders.states.statesByKey.get? k = some st := by
  obtain ⟨safe, run⟩ := creatingPool_of_reaches free distinct normalizes hreads fresh before after
  refine ⟨fun r hr => (safe.returned hr).settled, fun e he k st hk hst hmem => ?_⟩
  have hended : ∀ c next, p.threads i ≠ .call c next := by
    intro c next hcall
    cases he.symm.trans hcall
  obtain ⟨hmoves, hsame⟩ := Pool.Safe.of_ended (moves_of_moves fresh) Moves.refl
    (fun _ _ _ h g => h.trans g) (fun j hj => moves_of_moves fresh j i hj) safe hended run
  exact ⟨hsame.trans he, hmoves.follows.running k st hk hst hmem⟩

/-- The approval a reply names is stored, at any later time: a record of the same principal, for the payload
of a request made of the message. -/
theorem escalation_is_recorded (free : CollisionFree platform (identities turns))
    (distinct : ApprovalIdsDistinct platform (slots turns)) (normalizes : platform.Normalizes)
    (hreads : platform.ReadsDatetimes) (fresh : Pairwise fun i j => Disjoint (V i) (V j))
    (run : Pool.Reaches (drawing platform V) (pool turns .empty) p) {i : ι} {r : CommandResult}
    (returned : p.threads i = .ret r) {id : String} (names : r.approvalId = some id) :
    ∃ a, p.state.approvals.approvalsById.get? ((turns i).principal.tenantId, id) = some a ∧
      a.AsksFor platform (turns i).principal (turns i).message (turns i).now (turns i).timezone :=
  have safe := (creatingPool_of_reaches free distinct normalizes hreads fresh run .refl).1
  (safe.returned returned).named id names

/-! ### A sample conversation -/

/-- Each of the two turns draws one identifier. -/
def sampleDraws (i : Bool) : Set Uuid := {sampleDraw i}

theorem draws_serve (i : Bool) (c : (conversationCalls conversationPlatform).Call)
    (s : ConversationStores conversationPlatform) :
    ConversationCall.Draws (sampleDraws i) c (ConversationCall.serve (sampleDraw i) c s).1 := by
  rcases c with c | c
  · cases c <;> first | exact rfl | trivial
  · trivial

theorem drawing_serve (i : Bool) (c : (conversationCalls conversationPlatform).Call)
    (s : ConversationStores conversationPlatform) :
    drawing conversationPlatform sampleDraws i c s (ConversationCall.serve (sampleDraw i) c s).1
      (ConversationCall.serve (sampleDraw i) c s).2 :=
  ⟨ConversationCall.effect_serve _ c s, draws_serve i c s⟩

theorem disjoint_sampleDraws : Pairwise fun i j => Disjoint (sampleDraws i) (sampleDraws j) := by
  have hne : ∀ i j, i ≠ j → sampleDraw i ≠ sampleDraw j := by decide
  intro i j hij
  exact Set.disjoint_singleton.mpr (hne i j hij)

theorem reads_sample : conversationPlatform.ReadsDatetimes :=
  (Platform.readsIsoTexts_ofTable _).readsDatetimes

/-- The first message leaves a draft that waits with its record; after the second the calendar shows it. -/
theorem approved_is_created_sample : ∃ (p q : ConversationPool conversationPlatform Bool)
    (st st' : WorkflowState) (d : ReminderDraft conversationPlatform) (e : CalendarEventResult),
    Pool.Reaches (drawing conversationPlatform sampleDraws) (pool sampleTurns .empty) p ∧
      p.state.reminders.states.statesByKey.get? ("tenant-1", conversationKey) = some st ∧
      ReminderDraft.fromMapping conversationPlatform st.data = .ok d ∧
      Pool.Reaches (drawing conversationPlatform sampleDraws) p q ∧
      q.state.reminders.states.statesByKey.get? ("tenant-1", conversationKey) = some st' ∧
      st'.status = .completed ∧ q.state.reminders.eventOf ("tenant-1", conversationKey) = some e ∧
      d.ShownBy e := by
  obtain ⟨p, hp, hps, -, hothers⟩ :=
    exists_recorded (drawing_serve true) (show sampleTurns true = reminderTurn from rfl)
  obtain ⟨q, hq, hqs⟩ := exists_approved (drawing_serve false) hps (hothers false (by decide))
  obtain ⟨hrecorded, happroved⟩ := recorded_and_approved
  have hrecord := hrecorded.pending
  have hawaiting := hrecorded.awaiting
  have hfull := happroved.full
  rw [← hps] at hrecord hawaiting
  rw [← hqs] at hfull
  obtain ⟨a, ha, hfields⟩ := Option.map_eq_some_iff.mp hrecord
  simp only [Prod.mk.injEq] at hfields
  have hgated := gated_of_reaches identities_sample slots_sample normalizes_sample
    (Pool.Reaches.mono (fun _ _ _ _ _ h => h.1) (hp.trans hq))
  obtain ⟨-, -, hcompleted⟩ := complete_of_full
    (hgated.effects.exactlyOnce identities_sample mem_identities_sample) hfull
  obtain ⟨st, hst, -, hcases⟩ := approved_is_created identities_sample slots_sample normalizes_sample
    reads_sample disjoint_sampleDraws hp hq _ a ha
  rw [hfields.2.1] at hst hcases
  change p.state.reminders.states.statesByKey.get? ("tenant-1", conversationKey) = some st at hst
  rw [hst] at hawaiting
  obtain ⟨-, d, hd, hsame | ⟨st', e, hst', hstatus, hevent, hshown⟩⟩ | ⟨hdone, -⟩ := hcases
  · -- the state would still wait
    have hwaits : q.state.reminders.states.statesByKey.get? ("tenant-1", conversationKey) = some st := hsame
    rw [InMemoryWorkflowStateStore.isCompleted_iff hwaits] at hcompleted
    simp [hcompleted] at hawaiting
  · exact ⟨p, q, st, st', d, e, hp, hst, hd, hq, hst', hstatus, hevent, hshown⟩
  · simp [hdone] at hawaiting

/-- The name in the answer to the first message leads to a record of its request. -/
theorem escalation_is_recorded_sample : ∃ (p : ConversationPool conversationPlatform Bool)
    (r : CommandResult) (a : PendingApproval),
    Pool.Reaches (drawing conversationPlatform sampleDraws) (pool sampleTurns .empty) p ∧
      p.threads true = .ret r ∧ r.approvalId = some sampleRecord.2 ∧
      p.state.approvals.approvalsById.get? sampleRecord = some a ∧
      a.AsksFor conversationPlatform reminderTurn.principal reminderTurn.message reminderTurn.now
        reminderTurn.timezone := by
  obtain ⟨p, hp, hps, hret, -⟩ :=
    exists_recorded (drawing_serve true) (show sampleTurns true = reminderTurn from rfl)
  have hnamed := recorded_and_approved.1.named
  -- what the turn returns is not computed again
  generalize recorded = o at hret hnamed
  obtain ⟨result, stores⟩ := o
  cases result with
  | error e => cases hnamed
  | ok r =>
    obtain ⟨a, ha, hasks⟩ := escalation_is_recorded identities_sample slots_sample normalizes_sample
      reads_sample disjoint_sampleDraws hp hret hnamed
    exact ⟨p, r, a, hp, hret, hnamed, ha, hasks⟩

/-! ### A stranded state -/

/-- Every call is answered, but nothing can be stored over a workflow state. -/
def failingPorts (c : (conversationCalls conversationPlatform).Call)
    (s : ConversationStores conversationPlatform) :
    (conversationCalls conversationPlatform).Resp c × ConversationStores conversationPlatform :=
  match c with
  | .inl (.upsert ..) => (.error (.external "OSError"), s)
  | c => ConversationCall.serve (sampleDraw true) c s

theorem drawing_failingPorts (c : (conversationCalls conversationPlatform).Call)
    (s : ConversationStores conversationPlatform) :
    drawing conversationPlatform sampleDraws true c s (failingPorts c s).1 (failingPorts c s).2 := by
  rcases c with c | c
  · cases c with
    | upsert => exact ⟨⟨.inl ⟨⟨_, rfl⟩, rfl⟩, rfl⟩, trivial⟩
    | _ => exact drawing_serve true _ s
  · exact drawing_serve true (.inr c) s

/-- The turn raised, and the state it registered is still running. -/
def isStranded (o : SampleOutcome) : Bool :=
  !o.1.isOk && (o.2.reminders.states.statesByKey.get? ("tenant-1", conversationKey)).any fun st =>
    st.status = .running ∧ st.workflowId = "wf_" ++ (sampleDraw true).hex

theorem stranded_reminderTurn : isStranded (reminderTurn.program.exec failingPorts .empty) = true := by
  decide +kernel

/-- Run alone over these ports, the turn raises behind its registration. -/
theorem reaches_stranded : ∃ (p : ConversationPool conversationPlatform Bool) (e : PyError)
    (st : WorkflowState),
    Pool.Reaches (drawing conversationPlatform sampleDraws) (pool sampleTurns .empty) p ∧
      p.threads true = .raise e ∧
      p.state.reminders.states.statesByKey.get? ("tenant-1", conversationKey) = some st ∧
      st.status = .running ∧ st.workflowId = "wf_" ++ (sampleDraw true).hex := by
  have hrun := Pool.reaches_of_exec drawing_failingPorts .empty fun i => (sampleTurns i).program
  have hstranded := stranded_reminderTurn
  change Pool.Reaches _ _ ⟨(reminderTurn.program.exec failingPorts .empty).2, Function.update _ true
    (.ofExcept (reminderTurn.program.exec failingPorts .empty).1)⟩ at hrun
  generalize reminderTurn.program.exec failingPorts .empty = o at hrun hstranded
  obtain ⟨result, stores⟩ := o
  cases result with
  | ok r => cases hstranded
  | error e =>
    simp only [isStranded, Bool.and_eq_true, Option.any_eq_true, decide_eq_true_eq] at hstranded
    obtain ⟨-, st, hst, hrunning, hid⟩ := hstranded
    exact ⟨_, e, st, hrun, by simp [Program.ofExcept], hst, hrunning, hid⟩

theorem running_is_held_stranded : ∃ (p : ConversationPool conversationPlatform Bool) (e : PyError)
    (st : WorkflowState), p.threads true = .raise e ∧ st.status = .running ∧
      ∀ q, Pool.Reaches (drawing conversationPlatform sampleDraws) p q → q.threads true = .raise e ∧
        q.state.reminders.states.statesByKey.get? ("tenant-1", conversationKey) = some st := by
  obtain ⟨p, e, st, hrun, hraised, hst, hrunning, hid⟩ := reaches_stranded
  refine ⟨p, e, st, hraised, hrunning, fun q hq => ?_⟩
  have hheld := running_is_held identities_sample slots_sample normalizes_sample reads_sample
    disjoint_sampleDraws hrun hq true
  exact hheld.2 e hraised _ st hst hrunning ⟨_, rfl, hid⟩

end ConversationTurn

end PersonalAssistant
