import PersonalAssistant.Conversation.Turns

/-!
# Approved effects

Every turn keeps the approval gate, from what it has read of the record to the transaction it opens, so
every interleaving of turns does.
-/
namespace PersonalAssistant

open Lib Program InMemoryOutbox ReminderIdempotencyIdentity ConversationCommandService

variable {platform : Platform} {principal : Principal} {D : Set ReminderIdempotencyIdentity}
  {U : Set ApprovalSlot} {α β : Type}

namespace ConversationCommandService

open ConversationCall

variable {svc : ConversationCommandService platform} {message : NormalizedMessage} {text : String}
  {now : DateTime} {timezone : String}

/-! ## Careful programs -/

/-- From knowledge `P` on, the program keeps the gate, whatever the other turns do. -/
def Careful (platform : Platform) (D : Set ReminderIdempotencyIdentity) (U : Set ApprovalSlot)
    (p : ConversationProgram platform α) (P : ConversationStores platform → Prop) : Prop :=
  p.Safe ConversationCall.Effect (Gated platform D U) (Continues D) (Continues D) (fun _ _ => True) P

section

variable {P : ConversationStores platform → Prop} {p : ConversationProgram platform α}

theorem careful_of_idle (h : p.All Idle) : Careful platform D U p P :=
  Safe.of_all (fun _ _ _ _ idle inv effect => idle_spec idle inv effect) h P

theorem Careful.bind {f : α → ConversationProgram platform β} {M : Except PyError α → ConversationStores platform → Prop}
    (hp : p.Safe ConversationCall.Effect (Gated platform D U) (Continues D) (Continues D) M P)
    (hf : ∀ a, Careful platform D U (f a) (M (.ok a))) : Careful platform D U (p >>= f) P :=
  Safe.bind hp hf fun _ _ _ _ => trivial

theorem Careful.check {x : Except PyError α} {f : α → ConversationProgram platform β}
    (next : ∀ a, x = .ok a → Careful platform D U (f a) P) :
    Careful platform D U (Program.ofExcept x >>= f) P :=
  Safe.check (fun _ _ _ _ _ => trivial) next

end

theorem careful_reply (status : AgentStatus) (kind : CommandKind)
    (text : Except String String) {P : ConversationStores platform → Prop} :
    Careful platform D U (reply status kind text) P :=
  careful_of_idle (idle_reply status kind text)

theorem stable_const (fact : Prop) : Stable (Gated platform D U) (Continues D) fun _ => fact := .const fact

/-- A record for an identity of `D` is added. -/
theorem careful_createApproval (distinct : ApprovalIdsDistinct platform U) {approval : PendingApproval}
    (record : RecordFor platform D U (principal.tenantId, approval.approvalId) approval)
    {P : ConversationStores platform → Prop} :
    Careful platform D U (createApproval principal approval) P := by
  have htenant : approval.tenantId = principal.tenantId := (Prod.ext_iff.mp record.key).1.symm
  refine Safe.bind (M := fun _ _ => True) ?_ (fun r => ?_) fun _ _ _ _ => trivial
  · refine safe_call.mpr fun s r s' inv _ h => ?_
    have hkept : Gated platform D U s' ∧ Continues D s s' := by
      obtain ⟨-, rfl⟩ | ⟨hcreate, hreminders⟩ := h
      · exact ⟨inv, .refl s'⟩
      · obtain ⟨hrecorded, hkeeps⟩ := inv.records.create distinct (htenant ▸ record) hcreate
        exact inv.records_of_lasting hrecorded (fun k a ha => ⟨a, hkeeps k a ha, .refl a⟩) hreminders
    exact ⟨hkept.1, hkept.2, fun _ => True, .const True, trivial, safe_ret.mpr fun _ _ _ => trivial⟩
  · cases r with
    | ok a => exact safe_ret.mpr fun _ _ _ => trivial
    | error e => exact safe_raise.mpr fun _ _ _ => trivial

/-- Behind the run of the workflow: the record made is one for the identity of the message. -/
theorem careful_escalate (distinct : ApprovalIdsDistinct platform U)
    (normalizes : platform.Normalizes) {key : String} {request : ReminderWorkflowInput}
    {i : ReminderIdempotency} {result : ReminderWorkflowResult}
    (hrequest : createRequest message text now timezone key = .ok request)
    (hi : reminderIdempotency platform principal request = .ok i) (mem : i.identity ∈ D)
    (slot : (principal.tenantId, principal.principalId, i.key platform) ∈ U)
    (fields : ReminderWorkflow.ResultOf platform i result) {P : ConversationStores platform → Prop} :
    Careful platform D U (svc.escalate principal message text now (i.key platform) result) P := by
  have hidle : ∀ x : Except PyError CommandResult, ∀ P, Careful platform D U (Program.ofExcept x) P :=
    fun x P => careful_of_idle (.ofExcept x)
  unfold escalate
  split_ifs
  · refine .check fun requestNow _ => .bind (M := fun _ _ => True) ?_ fun createdAt => ?_
    · exact careful_of_idle (idle_within ReminderWorkflow.still_utcnow)
    refine .check fun approval ha => .bind (M := fun _ _ => True) ?_ fun stored => ?_
    · exact careful_createApproval distinct (recordFor normalizes hrequest hi mem slot fields ha)
    · exact .check fun hint _ => hidle _ _
  · exact hidle _ _

/-- A run keeps the gate if what is known is a grant for each transaction it can open. -/
theorem safe_within (free : CollisionFree platform D) {K : ConversationStores platform → Prop}
    (stable : Stable (Gated platform D U) (Continues D) K) {ok : WorkflowCall platform → Prop}
    (granted : ∀ c, ok c → c.Admissible D ∧ ∀ s p run, Gated platform D U s → K s → c = .transact p run →
      s.approvals.ApprovedFor p.tenantId run.key)
    {p : WorkflowProgram platform α} {φ : α → Prop} (calls : p.All ok) (ends : p.Ends φ) :
    (within p).Safe ConversationCall.Effect (Gated platform D U) (Continues D) (Continues D)
      (OnOk fun a s => φ a ∧ K s) K := by
  refine Safe.left (Safe.of_calls stable (fun c s r s' hc inv known effect => ?_) calls ends)
  obtain ⟨hadmissible, happroved⟩ := granted c hc
  obtain ⟨hinv, hcontinues⟩ := inv.workflow free hadmissible (fun p run => happroved s p run inv known) effect
  exact ⟨hinv, hcontinues, stable s s' inv hinv known hcontinues⟩

/-- A run without approval and what follows it. -/
theorem careful_createReminder (free : CollisionFree platform D) (distinct : ApprovalIdsDistinct platform U)
    (normalizes : platform.Normalizes)
    (mem : ∀ d, messageIdentity platform principal message = .ok d → d ∈ D)
    (slot : ∀ d, messageIdentity platform principal message = .ok d →
      (principal.tenantId, principal.principalId, d.idempotencyKey platform) ∈ U)
    {P : ConversationStores platform → Prop} :
    Careful platform D U (svc.createReminder principal message text now timezone) P := by
  unfold createReminder
  split_ifs
  · exact careful_reply _ _ _
  refine .check fun d hd => .check fun request hrequest => ?_
  have happroval := createRequest_approval hrequest
  have hD : ∀ i, reminderIdempotency platform principal request = .ok i → i.identity ∈ D :=
    fun i hi => mem _ (messageIdentity_of_request hrequest hi)
  have hquiet : (svc.reminderWorkflow.run principal request).All WorkflowCall.Quiet :=
    ReminderWorkflow.quiet_run happroval
  have hcalls := hquiet.and (ReminderWorkflow.all_run hD)
  -- the run opens no transaction, so it needs no grant
  have hrun := safe_within (U := U) free (stable_const True) (fun c hc => ⟨hc.2, fun s p run _ _ h => by
    subst h; exact hc.1.elim⟩) hcalls (ReminderWorkflow.ends_run happroval)
  refine .bind (hrun.pre fun _ _ _ => trivial) fun result => ?_
  refine Safe.know (fun s _ h => h.1) fun hresult => ?_
  obtain ⟨i, hi, hfields, hkey⟩ := hresult
  obtain rfl : d = i.identity := Except.ok.inj (hd.symm.trans (messageIdentity_of_request hrequest hi))
  exact careful_escalate distinct normalizes hrequest hi (mem _ hd) (slot _ hd) hfields

/-! ## Approving -/

open InMemoryApprovalStore PendingApproval in
/-- The record was read for this principal, and has at most been decided since. -/
def Found (platform : Platform) (D : Set ReminderIdempotencyIdentity) (U : Set ApprovalSlot)
    (principal : Principal) (approval : PendingApproval) (s : ConversationStores platform) : Prop :=
  (RecordFor platform D U (principal.tenantId, approval.approvalId) approval ∧
      approval.principalId = principal.principalId) ∧
    ∃ a, s.approvals.approvalsById.get? (principal.tenantId, approval.approvalId) = some a ∧
      Decided approval a

variable {approval : PendingApproval} {s s' : ConversationStores platform}

theorem Found.stable : Stable (Gated platform D U) (Continues D) (Found platform D U principal approval) := by
  rintro s s' - - ⟨hrecord, a, hget, hdecided⟩ hcontinues
  obtain ⟨a', hget', hdecided'⟩ := hcontinues.records _ a hget
  exact ⟨hrecord, a', hget', hdecided.trans hdecided'⟩

theorem found_of_get {id : String} {r : Except PyError (Option PendingApproval)}
    {t : InMemoryApprovalStore} (inv : Gated platform D U s)
    (h : InMemoryApprovalStore.get principal id s.approvals = (r, t)) (hr : r = .ok (some approval)) :
    Found platform D U principal approval s := by
  obtain ⟨hget, hprincipal⟩ := (InMemoryApprovalStore.get_cases h).2 approval hr
  have hrecord := inv.records.records _ approval hget
  obtain ⟨htenant, hid⟩ := Prod.ext_iff.mp hrecord.key
  obtain rfl : id = approval.approvalId := hid
  exact ⟨⟨hrecord, hprincipal⟩, approval, hget, .refl approval⟩

/-- A run with a grant is the run of the approved record. -/
theorem careful_runApproved (free : CollisionFree platform D) {grant : ApprovalGrant}
    (record : RecordFor platform D U (principal.tenantId, approval.approvalId) approval)
    (hprincipal : approval.principalId = principal.principalId) :
    Careful platform D U (svc.runApproved principal approval grant)
      fun s => s.approvals.ApprovedFor principal.tenantId approval.idempotencyKey := by
  unfold runApproved
  refine .check fun request hrequest => ?_
  have htenant : approval.tenantId = principal.tenantId := (Prod.ext_iff.mp record.key).1.symm
  have hrebuilt := fun i => record.rebuilt principal grant request i htenant.symm hprincipal.symm hrequest
  have htransacts : (svc.reminderWorkflow.run principal request).All (WorkflowCall.TransactsFor principal) :=
    ReminderWorkflow.transactsFor_run
  have hcalls := htransacts.and (ReminderWorkflow.all_run (D := {d | ∃ i,
    reminderIdempotency platform principal request = .ok i ∧ i.identity = d}) fun i hi => ⟨i, hi, rfl⟩)
  refine .bind (safe_within (U := U) free ?_ (fun c hc => ⟨?_, fun s p run inv known h => ?_⟩) hcalls
    (.trivial _)) fun result => careful_of_idle (.ofExcept _)
  · exact fun s s' _ _ h hcontinues => hcontinues.records.approvedFor h
  · exact WorkflowCall.admissible_mono hc.2 fun d ⟨i, hi, hd⟩ => hd ▸ (hrebuilt i hi).1
  · subst h
    obtain ⟨hp, ⟨i, hi, hd⟩, -⟩ := hc
    have hkey : run.key = approval.idempotencyKey := by
      rw [← (hrebuilt i hi).2.1]
      exact congrArg (ReminderIdempotencyIdentity.idempotencyKey platform) hd.symm
    rw [show p = principal from hp, hkey]
    exact known

/-- The grant is asked for, and issued for an approved record only. -/
theorem careful_granted (free : CollisionFree platform D) :
    Careful platform D U (do
      let granted ← perform (S := conversationCalls platform) (.inr (.approve principal approval.approvalId))
      match granted with
      | .ok grant => svc.runApproved principal approval grant
      | .error e =>
        if e.code?.isSome then reply .failed .approve (svc.replies.text "approval_failed") else raise e)
      (Found platform D U principal approval) := by
  rw [perform_bind]
  refine Safe.call (M := fun granted s => ((RecordFor platform D U (principal.tenantId, approval.approvalId)
      approval ∧ approval.principalId = principal.principalId) ∧ ∀ grant, granted = .ok grant →
      s.approvals.ApprovedFor principal.tenantId approval.idempotencyKey))
    (fun granted s s' _ _ h hc => ⟨h.1, fun grant hg => hc.records.approvedFor (h.2 grant hg)⟩) ?_ ?_
  · rintro s granted s' inv hfound h
    obtain ⟨⟨name, rfl⟩, rfl⟩ | ⟨now, happrove, hreminders⟩ := h
    · exact ⟨inv, .refl s', hfound.1, fun grant hg => by cases hg⟩
    · obtain ⟨hdecides, hgrant⟩ := InMemoryApprovalStore.approve_cases happrove
      obtain ⟨hinv, hcontinues⟩ := inv.decides hdecides (by decide) hreminders
      refine ⟨hinv, hcontinues, hfound.1, fun grant hg => ?_⟩
      obtain ⟨-, a, hget, hdecided⟩ := Found.stable s s' inv hinv hfound hcontinues
      obtain ⟨b, hb, happroved⟩ := hgrant grant hg
      cases hget.symm.trans hb
      exact ⟨_, a, hget, happroved, hdecided.idempotencyKey⟩
  · rintro (e | grant)
    · dsimp only
      split_ifs
      · exact careful_reply _ _ _
      · exact careful_of_idle trivial
    · refine Safe.know (fun s _ h => h.1) fun hrecord => ?_
      exact (careful_runApproved free hrecord.1 hrecord.2).pre fun s _ h => h.2 grant rfl

theorem careful_approve (free : CollisionFree platform D) {P : ConversationStores platform → Prop} :
    Careful platform D U (svc.approve principal text) P := by
  unfold approve
  cases restOfWords text with
  | none => exact careful_reply _ _ _
  | some argument =>
    dsimp only
    rw [perform_bind]
    refine Safe.call (M := fun found s => ∀ a, found = .ok (some a) → Found platform D U principal a s)
      (fun found s s' hi hi' h hc a ha => Found.stable s s' hi hi' (h a ha) hc) ?_ fun found => ?_
    · rintro s found s' inv - h
      obtain ⟨⟨name, rfl⟩, rfl⟩ | ⟨hget, hreminders⟩ := h
      · exact ⟨inv, .refl s', fun a ha => by cases ha⟩
      · have hsame := (InMemoryApprovalStore.get_cases hget).1
        obtain ⟨hinv, hcontinues⟩ := inv.records_of_lasting (hsame ▸ inv.records) (hsame ▸ .refl _) hreminders
        refine ⟨hinv, hcontinues, fun a ha => ?_⟩
        exact Found.stable s s' inv hinv (found_of_get inv hget ha) hcontinues
    · refine Careful.check fun found hfound => ?_
      cases found with
      | none => exact careful_reply _ _ _
      | some approval =>
        dsimp only
        split_ifs
        · exact careful_reply _ _ _
        · exact (careful_granted free).pre fun s _ h => h approval hfound

theorem careful_cancel {P : ConversationStores platform → Prop} :
    Careful platform D U (svc.cancel principal text) P := by
  unfold cancel
  cases restOfWords text with
  | none => exact careful_reply _ _ _
  | some argument =>
    dsimp only
    rw [perform_bind]
    refine Safe.call (M := fun _ _ => True) (fun _ => .const True) ?_ fun rejected => ?_
    · rintro s rejected s' inv - h
      obtain ⟨-, rfl⟩ | ⟨now, hreject, hreminders⟩ := h
      · exact ⟨inv, .refl s', trivial⟩
      · obtain ⟨hinv, hcontinues⟩ :=
          inv.decides (InMemoryApprovalStore.cancel_cases hreject) (by decide) hreminders
        exact ⟨hinv, hcontinues, trivial⟩
    · cases rejected with
      | ok => exact careful_reply _ _ _
      | error e =>
        dsimp only
        split_ifs
        · exact careful_reply _ _ _
        · exact careful_of_idle trivial

/-- Every turn keeps the gate. -/
theorem careful_handle (free : CollisionFree platform D) (distinct : ApprovalIdsDistinct platform U)
    (normalizes : platform.Normalizes)
    (mem : ∀ d, messageIdentity platform principal message = .ok d → d ∈ D)
    (slot : ∀ d, messageIdentity platform principal message = .ok d →
      (principal.tenantId, principal.principalId, d.idempotencyKey platform) ∈ U) :
    Careful platform D U (svc.handle principal message now timezone) fun _ => True := by
  refine handle_rule (fun p => ∀ P, Careful platform D U p P) (fun p h _ P => careful_of_idle h)
    (fun p f h hf P => ?_) (fun text P => careful_createReminder free distinct normalizes mem slot)
    (fun _ P => careful_approve free) (fun _ P => careful_cancel) _
  exact .bind (M := fun _ _ => True) (careful_of_idle h) fun a => hf a _

end ConversationCommandService

namespace ConversationTurn

open ConversationCall

variable {ι : Type} [DecidableEq ι] {turns : ι → ConversationTurn platform}
  {p q : ConversationPool platform ι}

/-- The identities of the messages. -/
def identities (turns : ι → ConversationTurn platform) : Set ReminderIdempotencyIdentity :=
  {d | ∃ i, messageIdentity platform (turns i).principal (turns i).message = .ok d}

/-- What the records made for the messages are named after. -/
def slots (turns : ι → ConversationTurn platform) : Set ApprovalSlot :=
  {x | ∃ i d, messageIdentity platform (turns i).principal (turns i).message = .ok d ∧
    x = ((turns i).principal.tenantId, (turns i).principal.principalId, d.idempotencyKey platform)}

omit [DecidableEq ι] in
theorem pool_safe (free : CollisionFree platform (identities turns))
    (distinct : ApprovalIdsDistinct platform (slots turns)) (normalizes : platform.Normalizes) :
    Pool.Safe (semantics platform ι) (Gated platform (identities turns) (slots turns))
      (fun _ => Continues (identities turns)) (fun _ => Continues (identities turns)) (fun _ _ _ => True)
      (pool turns .empty) := by
  refine ⟨.empty, fun i => ⟨fun _ => True, .const True, trivial, ?_⟩⟩
  exact careful_handle free distinct normalizes (fun d hd => ⟨i, hd⟩) fun d hd => ⟨i, d, hd, rfl⟩

/-- The approval gate holds in every state reached. -/
theorem gated_of_reaches (free : CollisionFree platform (identities turns))
    (distinct : ApprovalIdsDistinct platform (slots turns)) (normalizes : platform.Normalizes)
    (run : Pool.Reaches (semantics platform ι) (pool turns .empty) p) :
    Gated platform (identities turns) (slots turns) p.state := by
  have compat : ∀ i j : ι, i ≠ j → ∀ s s' : ConversationStores platform,
      Continues (identities turns) s s' → Continues (identities turns) s s' := fun _ _ _ _ _ h => h
  exact (Pool.sound compat (pool_safe free distinct normalizes) run).1

/-- In every interleaving of any turns of any users, whatever fails and whatever a language model answers,
an identity has effects only if the record of its approval is approved, and then all of them; records and
completed effects last, and what was decided about a record stays decided. -/
theorem effects_are_approved (free : CollisionFree platform (identities turns))
    (distinct : ApprovalIdsDistinct platform (slots turns)) (normalizes : platform.Normalizes)
    (before : Pool.Reaches (semantics platform ι) (pool turns .empty) p)
    (after : Pool.Reaches (semantics platform ι) p q) :
    (∀ tenantId, ∀ d ∈ identities turns, p.state.reminders.ExactlyOnce tenantId d ∧
      (p.state.reminders.effects tenantId (d.idempotencyKey platform) ≠ .empty →
        p.state.approvals.ApprovedFor tenantId (d.idempotencyKey platform))) ∧
      p.state.approvals.Lasting q.state.approvals ∧
      p.state.reminders.Persist (identities turns) q.state.reminders := by
  have compat : ∀ i j : ι, i ≠ j → ∀ s s' : ConversationStores platform,
      Continues (identities turns) s s' → Continues (identities turns) s s' := fun _ _ _ _ _ h => h
  have hsafe := Pool.sound compat (pool_safe free distinct normalizes) before
  have hcontinues : Continues (identities turns) p.state q.state :=
    Pool.guarantee_of_run compat .refl (fun _ _ _ h g => h.trans g) (fun _ _ _ h => h) hsafe after
  refine ⟨fun tenantId d hd => ?_, hcontinues.records, hcontinues.effects⟩
  have honce : p.state.reminders.ExactlyOnce tenantId d := hsafe.1.effects.exactlyOnce free hd
  refine ⟨honce, fun hne => hsafe.1.completed _ _ ?_⟩
  exact (honce.resolve_left fun h => hne h.1).2

/-! ### A sample conversation -/

/-- What is hashed to name the records for two messages. -/
def approvalTexts : List String :=
  ["event-1", "event-2"].map fun sourceEventId =>
    "tenant-1:user-1:" ++ (ReminderIdempotencyIdentity.sample sourceEventId).idempotencyKey reminderPlatform

def approvalDigests : List Nat :=
  [0x160ac2c9267f71bd24b38df751ed5f031cd19c5a535fdf89c00eae88fe2c9485,
    0x1fc0754268436e11373bc64bf1ad74ded3c4f48f8e1ac0a8fd3a70c155dd4afb]

def conversationPlatform : Platform :=
  .ofTable ((reminderTexts ++ approvalTexts).zip ((reminderDigests ++ approvalDigests).map .ofNat))

def sampleService : ConversationCommandService conversationPlatform where
  reminderWorkflow := .sample false (.parsed .sample)
  replies := ⟨fun key => .ok key, fun key _ => .ok key⟩
  helpLines := .ok []
  llm := false
  lower := id
  renderIntent := fun _ _ _ => .ok ""
  accepts := fun _ => true

def reminderTurn : ConversationTurn conversationPlatform where
  service := sampleService
  principal := .sample
  message := {
    channel := .telegram, conversationId := "chat-1", messageId := "message-1", sourceEventId := "event-1"
    text := "/recordar Call home", command := some "recordar", commandArgs := "Call home"
    nonempty := by decide }
  now := .ofInstant ⟨0, Nat.zero_le _⟩
  timezone := "UTC"

/-- The user approves the record made for the first message. -/
def approvalTurn : ConversationTurn conversationPlatform where
  service := sampleService
  principal := .sample
  message := {
    channel := .telegram, conversationId := "chat-1", messageId := "message-2", sourceEventId := "event-2"
    text := "/aprobar ap_160ac2c926", command := some "aprobar", commandArgs := "ap_160ac2c926"
    nonempty := by decide }
  now := .ofInstant ⟨0, Nat.zero_le _⟩
  timezone := "UTC"

def sampleTurns : Bool → ConversationTurn conversationPlatform
  | true => reminderTurn
  | false => approvalTurn

theorem sampleTurns_identity {i : Bool} {d : ReminderIdempotencyIdentity}
    (h : messageIdentity conversationPlatform (sampleTurns i).principal (sampleTurns i).message = .ok d) :
    d = if i then .sample "event-1" else .sample "event-2" := by
  have hidentity : ∀ i, (messageIdentity conversationPlatform (sampleTurns i).principal
      (sampleTurns i).message).toOption =
        some (if i then .sample "event-1" else .sample "event-2") := by decide +kernel
  have hd := hidentity i
  rw [h] at hd
  exact Option.some.inj hd

theorem identities_sample : CollisionFree conversationPlatform (identities sampleTurns) := by
  have hinj : Set.InjOn conversationPlatform.sha256 {t | t ∈ reminderTexts ++ approvalTexts} :=
    Platform.injOn_ofNumbers (by rfl) (Digest.nodup_ofNat (by decide +kernel))
  refine hinj.mono ?_
  rintro t ⟨d, ⟨i, hd⟩, ht⟩
  rw [sampleTurns_identity hd] at ht
  cases i <;> simp_all [reminderTexts]

theorem slots_sample : ApprovalIdsDistinct conversationPlatform (slots sampleTurns) := by
  have hnames : approvalIdOf conversationPlatform "tenant-1" "user-1"
        ((ReminderIdempotencyIdentity.sample "event-1").idempotencyKey conversationPlatform) ≠
      approvalIdOf conversationPlatform "tenant-1" "user-1"
        ((ReminderIdempotencyIdentity.sample "event-2").idempotencyKey conversationPlatform) := by
    decide +kernel
  rintro x ⟨i, d, hd, rfl⟩ y ⟨j, d', hd', rfl⟩ h
  rw [sampleTurns_identity hd, sampleTurns_identity hd'] at h ⊢
  have hid := (Prod.ext_iff.mp h).2
  cases i <;> cases j
  · rfl
  · exact absurd hid.symm hnames
  · exact absurd hid hnames
  · rfl

theorem normalizes_sample : conversationPlatform.Normalizes := ⟨fun _ => rfl, fun _ => stripBy_stripBy _⟩

/-- The key of the record made for the first message. -/
def sampleRecord : Key := ("tenant-1", "ap_160ac2c926")

/-- The key its state and its effects stand under. -/
def conversationKey : String :=
  (ReminderIdempotencyIdentity.sample "event-1").idempotencyKey conversationPlatform

/-- The identifiers either turn draws. -/
def sampleDraw : Bool → Uuid
  | true => .zero
  | false => ⟨String.ofList (List.replicate 32 '5'), by decide⟩

abbrev SampleOutcome := Except PyError CommandResult × ConversationStores conversationPlatform

/-- The first message alone. -/
def recorded : SampleOutcome := reminderTurn.program.exec (ConversationCall.serve (sampleDraw true)) .empty

/-- The second message, behind the first. -/
def approved : SampleOutcome :=
  approvalTurn.program.exec (ConversationCall.serve (sampleDraw false)) recorded.2

/-- The first message is answered with the name of a pending record, and its state waits. -/
structure IsRecorded (o : SampleOutcome) : Prop where
  named : o.1.toOption.bind CommandResult.approvalId = some sampleRecord.2
  pending : (o.2.approvals.approvalsById.get? sampleRecord).map (fun a => (a.principalId, a.idempotencyKey, a.status)) =
    some ("user-1", conversationKey, .pending)
  awaiting : (o.2.reminders.states.statesByKey.get? ("tenant-1", conversationKey)).map
    WorkflowState.status = some .waitingApproval

/-- The second is answered, and there is every effect. -/
structure IsApproved (o : SampleOutcome) : Prop where
  answered : o.1.isOk = true
  full : (o.2.reminders.effects "tenant-1" conversationKey).isFull = true

-- one evaluation for both outcomes: the second contains the first
theorem recorded_and_approved : IsRecorded recorded ∧ IsApproved approved := by
  have heval : (recorded.1.toOption.bind CommandResult.approvalId = some sampleRecord.2 ∧
      (recorded.2.approvals.approvalsById.get? sampleRecord).map (fun a => (a.principalId, a.idempotencyKey, a.status)) =
        some ("user-1", conversationKey, .pending) ∧
      (recorded.2.reminders.states.statesByKey.get? ("tenant-1", conversationKey)).map
        WorkflowState.status = some .waitingApproval) ∧
      approved.1.isOk = true ∧
        (approved.2.reminders.effects "tenant-1" conversationKey).isFull = true := by
    decide +kernel
  obtain ⟨⟨named, pending, awaiting⟩, answered, full⟩ := heval
  exact ⟨⟨named, pending, awaiting⟩, answered, full⟩

/-- A turn that runs alone, every call answered. -/
theorem exists_served {sem : Semantics (conversationCalls platform) (ConversationStores platform) ι}
    {i : ι} {fresh : Uuid} {turn : ConversationTurn platform}
    {o : Except PyError CommandResult × ConversationStores platform}
    (serves : ∀ c s, sem i c s (ConversationCall.serve fresh c s).1 (ConversationCall.serve fresh c s).2)
    (thread : p.threads i = turn.program)
    (outcome : turn.program.exec (ConversationCall.serve fresh) p.state = o) :
    ∃ q, Pool.Reaches sem p q ∧ q.state = o.2 ∧ q.threads i = .ofExcept o.1 ∧
      ∀ j ≠ i, q.threads j = p.threads j := by
  have hrun := Pool.reaches_of_exec serves p.state p.threads
  rw [thread, outcome] at hrun
  exact ⟨_, hrun, rfl, by simp, fun j hj => by simp [hj]⟩

section Served

variable {sem : Semantics (conversationCalls conversationPlatform) (ConversationStores conversationPlatform) ι}
  {turns : ι → ConversationTurn conversationPlatform} {i : ι} {p : ConversationPool conversationPlatform ι}

/-- The first message is handled, and nothing else happens. -/
theorem exists_recorded (serves : ∀ c s, sem i c s (ConversationCall.serve (sampleDraw true) c s).1
      (ConversationCall.serve (sampleDraw true) c s).2) (hi : turns i = reminderTurn) :
    ∃ p, Pool.Reaches sem (pool turns .empty) p ∧ p.state = recorded.2 ∧
      p.threads i = .ofExcept recorded.1 ∧ ∀ j ≠ i, p.threads j = (turns j).program := by
  have hthread : (pool turns .empty).threads i = reminderTurn.program := by simp [pool, hi]
  have houtcome : reminderTurn.program.exec (ConversationCall.serve (sampleDraw true))
      (pool turns .empty).state = recorded := by rw [recorded, pool]
  exact exists_served serves hthread houtcome

/-- Then the second. -/
theorem exists_approved (serves : ∀ c s, sem i c s (ConversationCall.serve (sampleDraw false) c s).1
      (ConversationCall.serve (sampleDraw false) c s).2) (hs : p.state = recorded.2)
    (thread : p.threads i = approvalTurn.program) :
    ∃ q, Pool.Reaches sem p q ∧ q.state = approved.2 := by
  have houtcome : approvalTurn.program.exec (ConversationCall.serve (sampleDraw false)) p.state =
      approved := by rw [approved, hs]
  obtain ⟨q, hrun, hstate, -⟩ := exists_served serves thread houtcome
  exact ⟨q, hrun, hstate⟩

end Served

theorem mem_identities_sample : ReminderIdempotencyIdentity.sample "event-1" ∈ identities sampleTurns := by
  refine ⟨true, ?_⟩
  decide +kernel

/-- Where something of each is stored, the effects are complete and their state is completed. -/
theorem complete_of_full {p : ConversationPool conversationPlatform Bool}
    (once : p.state.reminders.ExactlyOnce "tenant-1" (.sample "event-1"))
    (full : (p.state.reminders.effects "tenant-1" conversationKey).isFull = true) :
    p.state.reminders.effects "tenant-1" conversationKey ≠ .empty ∧
      (p.state.reminders.effects "tenant-1" conversationKey).Complete
        (.fromIdentity conversationPlatform (.sample "event-1")) ∧
      p.state.reminders.states.IsCompleted ("tenant-1", conversationKey) := by
  have hne : p.state.reminders.effects "tenant-1" conversationKey ≠ .empty := by
    intro hempty
    simp [hempty, ReminderEffects.isFull, ReminderEffects.empty] at full
  obtain ⟨hempty, -⟩ | ⟨hcomplete, hcompleted⟩ := once
  · exact absurd hempty hne
  · exact ⟨hne, hcomplete, hcompleted⟩

/-- The first message leaves a pending record and no effect, the second an approved one and every effect. -/
theorem effects_are_approved_sample : ∃ p q : ConversationPool conversationPlatform Bool,
    Pool.Reaches (semantics conversationPlatform Bool) (pool sampleTurns .empty) p ∧
      Pool.Reaches (semantics conversationPlatform Bool) p q ∧
      (p.state.approvals.approvalsById.get? sampleRecord).map (fun a => (a.principalId, a.idempotencyKey, a.status)) =
        some ("user-1", conversationKey, .pending) ∧
      p.state.reminders.effects "tenant-1" conversationKey = .empty ∧
      q.state.approvals.ApprovedFor "tenant-1" conversationKey ∧
      (q.state.reminders.effects "tenant-1" conversationKey).Complete
        (.fromIdentity conversationPlatform (.sample "event-1")) := by
  have hserves : ∀ i c s, semantics conversationPlatform Bool i c s
      (ConversationCall.serve (sampleDraw i) c s).1 (ConversationCall.serve (sampleDraw i) c s).2 :=
    fun i => ConversationCall.effect_serve (sampleDraw i)
  obtain ⟨p, hp, hps, -, hothers⟩ := exists_recorded (hserves true) (show sampleTurns true = reminderTurn from rfl)
  obtain ⟨q, hq, hqs⟩ := exists_approved (hserves false) hps (hothers false (by decide))
  obtain ⟨⟨-, hpending, hawaiting⟩, -, hfull⟩ := recorded_and_approved
  rw [← hps] at hpending hawaiting
  rw [← hqs] at hfull
  have hfirst := ((effects_are_approved identities_sample slots_sample normalizes_sample hp hq).1
    "tenant-1" _ mem_identities_sample).1
  obtain ⟨honce, happroved⟩ := (effects_are_approved identities_sample slots_sample normalizes_sample
    (hp.trans hq) .refl).1 "tenant-1" _ mem_identities_sample
  obtain ⟨hne, hcomplete, -⟩ := complete_of_full honce hfull
  refine ⟨p, q, hp, hq, hpending, ?_, happroved hne, hcomplete⟩
  obtain ⟨hempty, -⟩ | ⟨-, hcompleted⟩ := hfirst
  · exact hempty
  · exact absurd (hawaiting.symm.trans hcompleted) (by decide)

end ConversationTurn

end PersonalAssistant
