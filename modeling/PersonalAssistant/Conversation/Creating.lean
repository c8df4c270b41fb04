import PersonalAssistant.Conversation.Running

/-!
# What a turn leaves behind

A turn moves the states of its own runs only. When it returns it holds no running state, and the record it
names is stored: one of the same principal, for the payload of a request made of the message.
-/
namespace PersonalAssistant

open Lib Program InMemoryOutbox ReminderIdempotencyIdentity ConversationCommandService ReminderStores

variable {platform : Platform} {principal : Principal} {D : Set ReminderIdempotencyIdentity}
  {U : Set ApprovalSlot} {W : Set Uuid} {s s' : ConversationStores platform} {α β : Type}

theorem ReminderStores.Ready.unique {t : ReminderStores platform} {k : Key} {fp fp' : String}
    (h : t.Ready k fp) (g : t.Ready k fp') : fp = fp' := by
  obtain ⟨st, hst, hfp, -⟩ := h
  obtain ⟨st', hst', hfp', -⟩ := g
  cases hst.symm.trans hst'
  exact Option.some.inj (hfp.symm.trans hfp')

theorem Settled.of_same (h : Settled W s) (same : s'.reminders = s.reminders) : Settled W s' :=
  fun k st hk => h k st (same ▸ hk)

/-! ## A turn -/

/-- The idempotency of a request `_create_reminder` makes of the message. -/
def RequestedBy (platform : Platform) (principal : Principal) (message : NormalizedMessage) (now : DateTime)
    (timezone : String) (i : ReminderIdempotency) : Prop :=
  ∃ text d request, messageIdentity platform principal message = .ok d ∧
    createRequest message text now timezone (d.idempotencyKey platform) = .ok request ∧
    reminderIdempotency platform principal request = .ok i

/-- The record is one of the principal, for the payload of a request made of the message. -/
structure PendingApproval.AsksFor (platform : Platform) (principal : Principal) (message : NormalizedMessage)
    (now : DateTime) (timezone : String) (a : PendingApproval) : Prop where
  principalId : a.principalId = principal.principalId
  request : ∃ i, RequestedBy platform principal message now timezone i ∧ a.idempotencyKey = i.key platform ∧
    a.payloadFingerprint = i.payloadFingerprint platform

theorem PendingApproval.AsksFor.decided {message : NormalizedMessage} {now : DateTime} {timezone : String}
    {a a' : PendingApproval} (h : a.AsksFor platform principal message now timezone) (hd : Decided a a') :
    a'.AsksFor platform principal message now timezone := by
  refine ⟨hd.principalId.trans h.principalId, ?_⟩
  rw [hd.idempotencyKey, hd.payloadFingerprint]
  exact h.request

/-- A record of this name asks for what the message asked for. -/
def AskedBy (principal : Principal) (message : NormalizedMessage) (now : DateTime) (timezone id : String)
    (s : ConversationStores platform) : Prop :=
  ∃ a, s.approvals.approvalsById.get? (principal.tenantId, id) = some a ∧
    a.AsksFor platform principal message now timezone

/-- A turn that has returned holds no running state, and the record it names is stored. -/
structure Answered (W : Set Uuid) (principal : Principal) (message : NormalizedMessage) (now : DateTime)
    (timezone : String) (r : CommandResult) (s : ConversationStores platform) : Prop where
  settled : Settled W s
  named : ∀ id, r.approvalId = some id → AskedBy principal message now timezone id s

namespace ConversationCommandService

open ConversationCall

variable {svc : ConversationCommandService platform} {message : NormalizedMessage} {text : String}
  {now : DateTime} {timezone : String} {P : ConversationStores platform → Prop}

theorem stable_askedBy {id : String} :
    Stable (@Drafting platform) (Moves (workflowIds W)) (AskedBy principal message now timezone id) := by
  rintro s s' - - ⟨a, ha, hasks⟩ hs
  obtain ⟨a', ha', hdecided⟩ := hs.records _ a ha
  exact ⟨a', ha', hasks.decided hdecided⟩

/-- A turn whose calls move the states of its own identifiers only. -/
def Creating (platform : Platform) (D : Set ReminderIdempotencyIdentity) (U : Set ApprovalSlot) (W : Set Uuid)
    (p : ConversationProgram platform α) (Q : α → ConversationStores platform → Prop)
    (P : ConversationStores platform → Prop) : Prop :=
  p.Safe (Kept D U W) Drafting (Moves (workflowIds W)) (Moves (workflowIds W)ᶜ) (OnOk Q) P

namespace Creating

variable {p : ConversationProgram platform α} {Q Q' : α → ConversationStores platform → Prop}

theorem ofIdle {φ : α → Prop} (stable : Stable Drafting (Moves (workflowIds W)) P) (h : p.All Idle)
    (ends : p.Ends φ) : Creating platform D U W p (fun a s => φ a ∧ P s) P := by
  refine Safe.of_calls stable (fun c s r s' idle inv hP h => ?_) h ends
  obtain rfl := same_of_idle idle h.effect
  exact ⟨inv, .refl _, hP⟩

theorem post (h : Creating platform D U W p Q P) (weaken : ∀ a s, Q a s → Q' a s) :
    Creating platform D U W p Q' P := by
  refine Safe.post h fun r s _ hr => ?_
  cases r with
  | ok a => exact weaken a s hr
  | error e => trivial

theorem check {x : Except PyError β} {f : β → ConversationProgram platform α}
    (next : ∀ a, x = .ok a → Creating platform D U W (f a) Q P) :
    Creating platform D U W (Program.ofExcept x >>= f) Q P :=
  Safe.check (fun _ _ _ _ _ => trivial) next

/-- Calls that change nothing are passed over. -/
theorem after {p : ConversationProgram platform β} {f : β → ConversationProgram platform α}
    (stable : Stable Drafting (Moves (workflowIds W)) P) (h : p.All Idle)
    (next : ∀ a, Creating platform D U W (f a) Q P) : Creating platform D U W (p >>= f) Q P :=
  Safe.then (ofIdle stable h (.trivial _)) fun a => Safe.pre (next a) fun _ _ h => h.2

/-- A command that reads and names no record. -/
theorem answered {p : ConversationProgram platform CommandResult} (h : p.All Idle)
    (ends : p.Ends fun r => r.approvalId = none) :
    Creating platform D U W p (Answered W principal message now timezone) (Settled W) := by
  refine post (ofIdle stable_settled h ends) fun r s hr => ⟨hr.2, fun id hid => ?_⟩
  cases hr.1.symm.trans hid

theorem reply (status : AgentStatus) (kind : CommandKind) (text : Except String String) :
    Creating platform D U W (reply status kind text) (Answered W principal message now timezone) (Settled W) :=
  answered (idle_reply status kind text) (ends_reply status kind text)

/-- A command that gives up. -/
theorem raise (e : PyError) : Creating platform D U W (Program.raise e) Q P :=
  safe_raise.mpr fun _ _ _ => trivial

end Creating

/-- The record an escalation names is stored. -/
structure Escalated (W : Set Uuid) (principal : Principal) (message : NormalizedMessage) (now : DateTime)
    (timezone : String) (stored : PendingApproval) (s : ConversationStores platform) : Prop where
  settled : Settled W s
  asked : AskedBy principal message now timezone (trim stored.approvalId) s

theorem stable_escalated {stored : PendingApproval} : Stable (@Drafting platform) (Moves (workflowIds W))
    (Escalated W principal message now timezone stored) :=
  fun s s' hi hi' h hs => ⟨h.settled.moves hs, stable_askedBy s s' hi hi' h.asked hs⟩

/-- The record returned is stored, and is for the payload of the state that waits. -/
theorem creating_createApproval {approval : PendingApproval} {i : ReminderIdempotency}
    (hkey : approval.idempotencyKey = i.key platform) (htenant : approval.tenantId = principal.tenantId)
    (hfp : approval.payloadFingerprint = i.payloadFingerprint platform)
    (asked : RequestedBy platform principal message now timezone i) :
    Creating platform D U W (createApproval principal approval)
      (Escalated W principal message now timezone)
      (fun s => Settled W s ∧
        s.reminders.Ready (principal.tenantId, i.key platform) (i.payloadFingerprint platform)) := by
  unfold createApproval
  rw [perform_bind]
  refine Safe.call (M := fun r => OnOk (Escalated W principal message now timezone) r)
    (Stable.onOk fun _ => stable_escalated) ?_ fun r => Safe.ofExcept r
  rintro s r s' inv ⟨settled, ready⟩ h
  obtain ⟨⟨name, rfl⟩, rfl⟩ | ⟨hcreate, hreminders⟩ := h.effect
  · exact ⟨inv, .refl _, trivial⟩
  have inv' : Drafting s' := inv.create (by rwa [htenant, hkey, hfp]) hcreate hreminders
  refine ⟨inv', .of_same h hreminders, ?_⟩
  cases r with
  | error e => trivial
  | ok stored =>
    obtain ⟨hprincipal, hget, hslot⟩ := h.before.records.created hcreate
    have hrecord := h.after.records.records _ stored hget
    have hname : trim stored.approvalId = stored.approvalId := by
      rw [hrecord.named]
      exact trim_approvalIdOf _ _ _
    simp only [PendingApproval.approvalKey, Prod.mk.injEq] at hslot
    obtain ⟨-, huser, -, hstored⟩ := hslot
    have hready := inv'.ready _ stored hget
    rw [hstored, hkey, hreminders] at hready
    refine ⟨settled.of_same hreminders, stored, by rwa [hname], huser.trans hprincipal, ?_⟩
    exact ⟨i, asked, hstored.trans hkey, hready.unique ready⟩

theorem creating_escalate {key : String} {result : ReminderWorkflowResult} {i : ReminderIdempotency}
    (fields : ReminderWorkflow.ResultOf platform i result)
    (asked : RequestedBy platform principal message now timezone i) :
    Creating platform D U W (svc.escalate principal message text now key result)
      (Answered W principal message now timezone) (fun s => Settled W s ∧ (result.approvalRequired = true →
        s.reminders.Ready (principal.tenantId, result.idempotencyKey) result.payloadFingerprint)) := by
  rw [fields.idempotencyKey, fields.payloadFingerprint]
  unfold escalate
  split_ifs with hrequired
  · refine Creating.check fun requestNow _ => Safe.pre (P := fun s => Settled W s ∧
      s.reminders.Ready (principal.tenantId, i.key platform) (i.payloadFingerprint platform)) ?_
      fun s _ h => ⟨h.1, h.2 hrequired⟩
    have stable : Stable (@Drafting platform) (Moves (workflowIds W)) fun s => Settled W s ∧
      s.reminders.Ready (principal.tenantId, i.key platform) (i.payloadFingerprint platform) :=
      .and stable_settled stable_ready
    refine Creating.after stable (idle_within ReminderWorkflow.still_utcnow) fun createdAt => ?_
    refine Creating.check fun approval ha => ?_
    obtain ⟨htenant, hkey, hfp⟩ := record_fields fields ha
    refine Safe.then (creating_createApproval hkey htenant hfp asked) fun stored => ?_
    refine Creating.check fun hint _ => ?_
    refine Creating.post (Creating.ofIdle stable_escalated (.ofExcept _)
      (.ofExcept fun r hr => CommandResult.create_approvalId hr)) fun r s hr => ⟨hr.2.settled, fun id hid => ?_⟩
    cases hr.1.symm.trans hid
    exact hr.2.asked
  · refine Safe.pre (P := Settled W) ?_ fun s _ h => h.1
    exact Creating.answered (.ofExcept _) (.ofExcept fun r hr => CommandResult.create_approvalId hr)

/-- A run without approval, and the record of what it stored. -/
theorem creating_createReminder (hreads : platform.ReadsDatetimes) :
    Creating platform D U W (svc.createReminder principal message text now timezone)
      (Answered W principal message now timezone) (Settled W) := by
  unfold createReminder
  split_ifs
  · exact Creating.reply _ _ _
  refine Creating.check fun d hd => Creating.check fun request hrequest => ?_
  have happroval := createRequest_approval hrequest
  have hrun : Running platform D U W (svc.reminderWorkflow.run principal request) _ _ :=
    ReminderWorkflow.running_run hreads happroval
  have hended := Safe.ends hrun (ReminderWorkflow.ends_run happroval)
  refine Safe.then (Safe.left hended) fun result => ?_
  refine Safe.know (fun s _ h => h.1) fun ⟨i, hi, fields, _⟩ => ?_
  exact (creating_escalate fields ⟨text, d, request, hd, hrequest, hi⟩).pre fun s _ h => h.2

/-- The approved run of a record completes the state the record was made for. -/
theorem creating_runApproved {approval : PendingApproval} {grant : ApprovalGrant}
    (record : RecordFor platform D U (principal.tenantId, approval.approvalId) approval)
    (hprincipal : approval.principalId = principal.principalId) :
    Creating platform D U W (svc.runApproved principal approval grant)
      (Answered W principal message now timezone) (fun s =>
        s.reminders.Ready (principal.tenantId, approval.idempotencyKey) approval.payloadFingerprint ∧
          Settled W s) := by
  unfold runApproved
  refine Creating.check fun request hrequest => ?_
  have htenant : approval.tenantId = principal.tenantId := (Prod.ext_iff.mp record.key).1.symm
  have hrebuilt := fun i => record.rebuilt principal grant request i htenant.symm hprincipal.symm hrequest
  have happroval : request.approval ≠ none := by
    rw [(ReminderWorkflowInput.create_fields hrequest).2.2.2.2.2.2]
    exact Option.some_ne_none grant
  have hrun : Running platform D U W (svc.reminderWorkflow.run principal request) (fun _ s => Settled W s)
      (fun s => s.reminders.Ready (principal.tenantId, approval.idempotencyKey) approval.payloadFingerprint ∧
        Settled W s) :=
    ReminderWorkflow.running_run_approved (fun i hi => (hrebuilt i hi).1) happroval
      fun i hi => (hrebuilt i hi).2.1
  refine Safe.then (Safe.left hrun) fun result => ?_
  exact Creating.answered (.ofExcept _) (.ofExcept fun r hr => CommandResult.create_approvalId hr)

theorem creating_granted {approval : PendingApproval}
    (record : RecordFor platform D U (principal.tenantId, approval.approvalId) approval)
    (hprincipal : approval.principalId = principal.principalId) :
    Creating platform D U W (do
      let granted ← perform (S := conversationCalls platform) (.inr (.approve principal approval.approvalId))
      match granted with
      | .ok grant => svc.runApproved principal approval grant
      | .error e =>
        if e.code?.isSome then reply .failed .approve (svc.replies.text "approval_failed") else raise e)
      (Answered W principal message now timezone) (fun s =>
        s.reminders.Ready (principal.tenantId, approval.idempotencyKey) approval.payloadFingerprint ∧
          Settled W s) := by
  rw [perform_bind]
  refine Safe.call (M := fun _ s => s.reminders.Ready (principal.tenantId, approval.idempotencyKey)
    approval.payloadFingerprint ∧ Settled W s) (fun _ => .and stable_ready stable_settled) ?_ fun granted => ?_
  · rintro s granted s' inv ⟨ready, settled⟩ h
    obtain ⟨-, rfl⟩ | ⟨moment, happrove, hreminders⟩ := h.effect
    · exact ⟨inv, .refl _, ready, settled⟩
    · have hdecides := (InMemoryApprovalStore.approve_cases happrove).1
      exact ⟨inv.decides hdecides hreminders, .of_same h hreminders, hreminders ▸ ready,
        settled.of_same hreminders⟩
  · rcases granted with e | grant
    · dsimp only
      split_ifs
      · exact Safe.pre (Creating.reply _ _ _) fun s _ h => h.2
      · exact Creating.raise e
    · exact creating_runApproved record hprincipal

theorem creating_approve : Creating platform D U W (svc.approve principal text)
    (Answered W principal message now timezone) (Settled W) := by
  unfold approve
  cases restOfWords text with
  | none => exact Creating.reply _ _ _
  | some argument =>
    dsimp only
    rw [perform_bind]
    refine Safe.call (M := fun found s => (∀ a, found = .ok (some a) →
      (RecordFor platform D U (principal.tenantId, a.approvalId) a ∧ a.principalId = principal.principalId) ∧
        s.reminders.Ready (principal.tenantId, a.idempotencyKey) a.payloadFingerprint) ∧ Settled W s)
      (fun found => .and (fun s s' hi _ h hs a ha => ⟨(h a ha).1, (h a ha).2.follows hi.drafts hs.follows⟩)
        stable_settled) ?_ fun found => ?_
    · intro s found s' inv settled h
      have hsame := same_of_idle (c := .inr (.getApproval principal (strip argument))) trivial h.effect
      subst hsame
      refine ⟨inv, .refl _, fun a ha => ?_, settled⟩
      obtain ⟨⟨name, rfl⟩, -⟩ | ⟨hget, -⟩ := h.effect
      · cases ha
      · refine ⟨(found_of_get h.before hget ha).1, ?_⟩
        exact inv.ready _ a ((InMemoryApprovalStore.get_cases hget).2 a ha).1
    · refine Creating.check fun found hfound => ?_
      cases found with
      | none => exact Safe.pre (Creating.reply _ _ _) fun s _ h => h.2
      | some approval =>
        dsimp only
        split_ifs
        · exact Safe.pre (Creating.reply _ _ _) fun s _ h => h.2
        · refine Safe.know (fun s _ h => (h.1 approval hfound).1) fun hrecord => ?_
          exact (creating_granted hrecord.1 hrecord.2).pre fun s _ h => ⟨(h.1 approval hfound).2, h.2⟩

theorem creating_cancel : Creating platform D U W (svc.cancel principal text)
    (Answered W principal message now timezone) (Settled W) := by
  unfold cancel
  cases restOfWords text with
  | none => exact Creating.reply _ _ _
  | some argument =>
    dsimp only
    rw [perform_bind]
    refine Safe.call (M := fun _ => Settled W) (fun _ => stable_settled) ?_ fun rejected => ?_
    · intro s rejected s' inv settled h
      obtain ⟨-, rfl⟩ | ⟨moment, hreject, hreminders⟩ := h.effect
      · exact ⟨inv, .refl _, settled⟩
      · have hdecides := InMemoryApprovalStore.cancel_cases hreject
        exact ⟨inv.decides hdecides hreminders, .of_same h hreminders, settled.of_same hreminders⟩
    · cases rejected with
      | ok => exact Creating.reply _ _ _
      | error e =>
        dsimp only
        split_ifs
        · exact Creating.reply _ _ _
        · exact Creating.raise e

theorem creating_handle (hreads : platform.ReadsDatetimes) :
    Creating platform D U W (svc.handle principal message now timezone)
      (Answered W principal message now timezone) (Settled W) := by
  refine handle_rule (fun p => Creating platform D U W p (Answered W principal message now timezone) (Settled W))
    (fun p h ends => Creating.answered h ends) (fun p f h hf => Creating.after stable_settled h hf)
    (fun text => creating_createReminder hreads) (fun _ => creating_approve) fun _ => creating_cancel

end ConversationCommandService

end PersonalAssistant
