import PersonalAssistant.Conversation.Records

/-!
# Requests of a conversation

The request rebuilt from an approval record has the identity of the message the record was made for: the
record keeps texts the identity was derived from, and normalizing such a text again does not change it.
-/
namespace PersonalAssistant

open Lib InMemoryOutbox ReminderIdempotencyIdentity ConversationCommandService

variable {platform : Platform} {principal : Principal} {D : Set ReminderIdempotencyIdentity}
  {U : Set ApprovalSlot}

/-! ## Normal texts -/

theorem stripList_extend {p q : Char → Bool} (h : ∀ c, p c = true → q c = true) (cs : List Char) :
    stripList q (stripList p cs) = stripList q cs := by
  have hdrop : ∀ l : List Char, (l.dropWhile p).dropWhile q = l.dropWhile q := by
    intro l
    conv_rhs => rw [← List.takeWhile_append_dropWhile (p := p) (l := l)]
    exact (List.dropWhile_append_of_pos fun c hc => h c (List.mem_takeWhile_imp hc)).symm
  have hback : ∀ l : List Char, ((l.rdropWhile p).dropWhile q).rdropWhile q =
      (l.dropWhile q).rdropWhile q := by
    intro l
    induction l using List.reverseRecOn with
    | nil => rfl
    | append_singleton l c ih =>
      rw [List.rdropWhile_concat]
      split_ifs with hc
      · -- the last character is blank either way
        rw [ih, List.dropWhile_append]
        split_ifs with hl
        · simp [List.isEmpty_iff.mp hl, h c hc]
        · rw [List.rdropWhile_concat_pos _ _ _ (h c hc)]
      · rfl
  rw [stripList, stripList, hback, hdrop]
  rfl

theorem strip_trim (s : String) : strip (trim s) = strip s := by
  rw [← String.toList_inj]
  simp only [strip, trim, toList_stripBy]
  exact stripList_extend (fun c hc => by simp [isSpace, hc]) _

/-- Composition to NFC changes a composed text no further and brings no blanks to the ends of a text. -/
structure Platform.Normalizes (platform : Platform) : Prop where
  composed : ∀ text, platform.nfc (platform.nfc text) = platform.nfc text
  stripped : ∀ text, strip (platform.nfc (strip text)) = platform.nfc (strip text)

theorem normalizeText_trim (text : String) :
    normalizeText platform (trim text) = normalizeText platform text := by
  simp only [normalizeText, strip_trim]

/-- A normalized text is trimmed and normal. -/
theorem normalizeText_normal (normalizes : platform.Normalizes) {text normal : String}
    (h : normalizeText platform text = .ok normal) :
    trim normal = normal ∧ normalizeText platform normal = .ok normal := by
  unfold normalizeText at h
  split_ifs at h with hblank
  cases h
  have hstrip := normalizes.stripped text
  refine ⟨hstrip ▸ trimmed_strip _, ?_⟩
  simp only [normalizeText, hstrip, normalizes.composed, if_neg hblank]

/-! ## Identities -/

/-- An identity is derived again from trimmed texts and its own source event. -/
theorem ReminderIdempotencyIdentity.create_again (normalizes : platform.Normalizes)
    {tenantId channel principalId conversationId sourceEventId : String}
    {d : ReminderIdempotencyIdentity}
    (h : create platform tenantId channel principalId conversationId sourceEventId = .ok d) :
    create platform tenantId channel principalId (trim conversationId) (trim d.sourceEventId) = .ok d := by
  unfold create at h ⊢
  obtain ⟨tenant, htenant, h⟩ := except_bind_eq_ok.mp h
  obtain ⟨name, hname, h⟩ := except_bind_eq_ok.mp h
  obtain ⟨user, huser, h⟩ := except_bind_eq_ok.mp h
  obtain ⟨conversation, hconversation, h⟩ := except_bind_eq_ok.mp h
  obtain ⟨source, hsource, h⟩ := except_bind_eq_ok.mp h
  cases h
  obtain ⟨htrim, hnormal⟩ := normalizeText_normal normalizes hsource
  rw [htenant, hname, huser, normalizeText_trim, hconversation, normalizeText_trim, htrim, hnormal]
  simp [Bind.bind, Except.bind, pure, Except.pure, htrim]

theorem ReminderPayload.create_again (normalizes : platform.Normalizes) {text recipient timezone : String}
    {p : ReminderPayload} (h : ReminderPayload.create platform text recipient timezone = .ok p) :
    ReminderPayload.create platform (trim text) (trim recipient) (trim p.timezone) = .ok p := by
  unfold ReminderPayload.create at h ⊢
  obtain ⟨words, hwords, h⟩ := except_bind_eq_ok.mp h
  obtain ⟨chat, hchat, h⟩ := except_bind_eq_ok.mp h
  obtain ⟨zone, hzone, h⟩ := except_bind_eq_ok.mp h
  cases h
  obtain ⟨htrim, hnormal⟩ := normalizeText_normal normalizes hzone
  rw [normalizeText_trim, hwords, normalizeText_trim, hchat, normalizeText_trim, htrim, hnormal]
  simp [Bind.bind, Except.bind, pure, Except.pure, htrim]

theorem reminderIdempotency_eq_ok {request : ReminderWorkflowInput} {i : ReminderIdempotency}
    (h : reminderIdempotency platform principal request = .ok i) :
    create platform principal.tenantId request.channel.value principal.principalId
        request.conversationId.text request.sourceEventId.text = .ok i.identity ∧
      ReminderPayload.create platform request.text.text request.recipient.text request.timezone.text =
        .ok i.payload := by
  obtain ⟨identity, hidentity, h⟩ := except_bind_eq_ok.mp h
  obtain ⟨payload, hpayload, h⟩ := except_bind_eq_ok.mp h
  cases h
  exact ⟨hidentity, hpayload⟩

theorem ReminderIdempotencyIdentity.create_trim
    {tenantId channel principalId conversationId sourceEventId : String} :
    create platform tenantId channel principalId (trim conversationId) (trim sourceEventId) =
      create platform tenantId channel principalId conversationId sourceEventId := by
  simp only [create, normalizeText_trim]

/-- What a request keeps of the texts it is made from. -/
theorem ReminderWorkflowInput.create_fields {messageId sourceEventId conversationId text channel recipient :
    String} {now : DateTime} {timezone : String} {key : Option String} {approval : Option ApprovalGrant}
    {request : ReminderWorkflowInput}
    (h : ReminderWorkflowInput.create messageId sourceEventId conversationId text channel recipient now
      timezone key approval = .ok request) :
    request.sourceEventId.text = trim sourceEventId ∧ request.conversationId.text = trim conversationId ∧
      request.text.text = trim text ∧ request.recipient.text = trim recipient ∧
      request.timezone.text = trim timezone ∧ ChannelName.ofValue channel = .ok request.channel ∧
      request.approval = approval := by
  obtain ⟨_, -, h⟩ := except_bind_eq_ok.mp h
  obtain ⟨source, hsource, h⟩ := except_bind_eq_ok.mp h
  obtain ⟨conversation, hconversation, h⟩ := except_bind_eq_ok.mp h
  obtain ⟨words, hwords, h⟩ := except_bind_eq_ok.mp h
  obtain ⟨name, hname, h⟩ := except_bind_eq_ok.mp h
  obtain ⟨chat, hchat, h⟩ := except_bind_eq_ok.mp h
  obtain ⟨_, -, h⟩ := except_bind_eq_ok.mp h
  obtain ⟨zone, hzone, h⟩ := except_bind_eq_ok.mp h
  cases h
  exact ⟨RequiredText.create_eq_ok hsource, RequiredText.create_eq_ok hconversation,
    RequiredText.create_eq_ok hwords, RequiredText.create_eq_ok hchat, RequiredText.create_eq_ok hzone, hname,
    rfl⟩

variable {message : NormalizedMessage} {text : String} {now : DateTime} {timezone key : String}
  {request : ReminderWorkflowInput} {i : ReminderIdempotency}

theorem createRequest_approval (h : createRequest message text now timezone key = .ok request) :
    request.approval = none :=
  (ReminderWorkflowInput.create_fields h).2.2.2.2.2.2

/-- The request made of a message has the identity of the message. -/
theorem messageIdentity_of_request
    (hrequest : createRequest message text now timezone key = .ok request)
    (hi : reminderIdempotency platform principal request = .ok i) :
    messageIdentity platform principal message = .ok i.identity := by
  obtain ⟨hsource, hconversation, -, -, -, hchannel, -⟩ := ReminderWorkflowInput.create_fields hrequest
  rw [ChannelName.ofValue_value] at hchannel
  have hsame : message.channel = request.channel := Except.ok.inj hchannel
  rw [messageIdentity, hsame, ← (reminderIdempotency_eq_ok hi).1, hsource, hconversation]
  exact create_trim.symm

/-! ## Records of messages -/

theorem PendingApproval.modelValidate_eq_ok {a b : PendingApproval}
    (h : PendingApproval.modelValidate platform a = .ok b) : b = a.trimmed := by
  obtain ⟨_, -, h⟩ := except_bind_eq_ok.mp h
  obtain ⟨_, -, h⟩ := except_bind_eq_ok.mp h
  obtain ⟨_, -, h⟩ := except_bind_eq_ok.mp h
  obtain ⟨_, -, h⟩ := except_bind_eq_ok.mp h
  cases h
  rfl

theorem trim_channel (c : ChannelName) : trim c.value = c.value := by cases c <;> decide

theorem trim_approvalIdOf (tenantId principalId key : String) :
    trim (approvalIdOf platform tenantId principalId key) = approvalIdOf platform tenantId principalId key :=
  trimmed_append_of_not_isSpace (forall_not_isSpace (by decide)) fun c hc => by
    simp only [String.toList_ofList] at hc
    exact Digest.not_isSpace _ c (List.mem_of_mem_take hc)

/-- The record is one for the result it is made of. -/
theorem record_fields {result : ReminderWorkflowResult} {key : String} {requestNow createdAt : Instant}
    {a : PendingApproval} (fields : ReminderWorkflow.ResultOf platform i result)
    (ha : PendingApproval.modelValidate platform (approvalRecord platform principal message text key result
      requestNow createdAt) = .ok a) :
    a.tenantId = principal.tenantId ∧ a.idempotencyKey = i.key platform ∧
      a.payloadFingerprint = i.payloadFingerprint platform := by
  rw [PendingApproval.modelValidate_eq_ok ha]
  refine ⟨principal.tenant.trimmed, ?_, ?_⟩
  · exact (congrArg trim fields.idempotencyKey).trans i.identity.trimmed_idempotencyKey
  · refine (congrArg trim fields.payloadFingerprint).trans ?_
    exact stripBy_eq_self_of_all fun c hc => isWhiteSpace_eq_false_of_isSpace (Digest.not_isSpace _ c hc)

/-- The record made for a message is one for its identity, and rebuilds its payload. -/
theorem recordFor (normalizes : platform.Normalizes) {result : ReminderWorkflowResult}
    {requestNow createdAt : Instant} {a : PendingApproval}
    (hrequest : createRequest message text now timezone key = .ok request)
    (hi : reminderIdempotency platform principal request = .ok i) (mem : i.identity ∈ D)
    (slot : (principal.tenantId, principal.principalId, i.key platform) ∈ U)
    (fields : ReminderWorkflow.ResultOf platform i result)
    (ha : PendingApproval.modelValidate platform (approvalRecord platform principal message text
      (i.key platform) result requestNow createdAt) = .ok a) :
    RecordFor platform D U (principal.tenantId, a.approvalId) a := by
  obtain ⟨hidentity, hpayload⟩ := reminderIdempotency_eq_ok hi
  obtain ⟨hsource, hconversation, htext, hrecipient, hzone, hchannel, -⟩ :=
    ReminderWorkflowInput.create_fields hrequest
  rw [ChannelName.ofValue_value] at hchannel
  have hsame : message.channel = request.channel := Except.ok.inj hchannel
  have htenant : trim principal.tenantId = principal.tenantId := principal.tenant.trimmed
  have huser : trim principal.principalId = principal.principalId := principal.principal.trimmed
  have hkey : trim (i.key platform) = i.key platform := i.identity.trimmed_idempotencyKey
  have hfingerprint : trim (i.payloadFingerprint platform) = i.payloadFingerprint platform :=
    stripBy_eq_self_of_all fun c hc => isWhiteSpace_eq_false_of_isSpace (Digest.not_isSpace _ c hc)
  rw [PendingApproval.modelValidate_eq_ok ha]
  refine ⟨?_, ?_, ?_, ?_, ?_⟩
  · simp [PendingApproval.trimmed, approvalRecord, htenant]
  · simp [PendingApproval.trimmed, approvalRecord, htenant, huser, hkey, fields.idempotencyKey,
      trim_approvalIdOf]
  · simpa [PendingApproval.trimmed, approvalRecord, htenant, huser, hkey, fields.idempotencyKey] using slot
  · exact (by decide : trim "reminder.create" = "reminder.create")
  · intro p grant rebuilt j hp hq hrebuilt hj
    obtain ⟨hsource', hconversation', htext', hrecipient', hzone', hchannel', -⟩ :=
      ReminderWorkflowInput.create_fields hrebuilt
    obtain ⟨hidentity', hpayload'⟩ := reminderIdempotency_eq_ok hj
    simp only [PendingApproval.trimmed, approvalRecord, htenant, huser] at hp hq
    simp only [PendingApproval.trimmed, approvalRecord, fields.sourceEventId] at hsource' hconversation'
    simp only [PendingApproval.trimmed, approvalRecord, fields.timezone] at htext' hrecipient' hzone'
    simp only [PendingApproval.trimmed, approvalRecord, trim_channel, ChannelName.ofValue_value] at hchannel'
    have hsame' : message.channel = rebuilt.channel := Except.ok.inj hchannel'
    have hid : j.identity = i.identity := by
      have hagain := create_again normalizes hidentity
      rw [hconversation, ← create_trim, ← create_trim] at hagain
      rw [hp, hq, ← hsame', hsame, hsource', hconversation', ← create_trim] at hidentity'
      simp only [trim, stripBy_stripBy] at hagain hidentity'
      exact Except.ok.inj (hidentity'.symm.trans hagain)
    have hpay : j.payload = i.payload := by
      have hagain := ReminderPayload.create_again normalizes hpayload
      rw [htext, hrecipient] at hagain
      rw [htext', hrecipient', hzone'] at hpayload'
      simp only [trim, stripBy_stripBy] at hagain hpayload'
      exact Except.ok.inj (hpayload'.symm.trans hagain)
    have hkeys : trim result.idempotencyKey = i.key platform := by rw [fields.idempotencyKey, hkey]
    have hfingerprints : trim result.payloadFingerprint = i.payloadFingerprint platform := by
      rw [fields.payloadFingerprint, hfingerprint]
    exact ⟨hid ▸ mem, (congrArg (ReminderIdempotencyIdentity.idempotencyKey platform) hid).trans hkeys.symm,
      (congrArg (ReminderPayload.fingerprint platform) hpay).trans hfingerprints.symm⟩

end PersonalAssistant
