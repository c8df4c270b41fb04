import PersonalAssistant.Lib.JsonReader
import PersonalAssistant.Reminders.Models

/-!
# Reminder drafts in workflow data

A draft is written over whatever the state's data held under the same names, possibly stored as JSON text,
and read back when an approval resumes the workflow.
-/
namespace PersonalAssistant

open Lib

variable {platform : Platform}

/-- A model reads an ISO timestamp with the UTC offset as the instant its fields name. -/
def Platform.ReadsIsoTexts (platform : Platform) : Prop :=
  ∀ (year month day time : Nat) (t : Instant), Civil.IsDate year month day → time < Civil.microsPerDay →
    t.micros = Civil.toDays year month day * Civil.microsPerDay + time →
    platform.readDatetime (.str (String.ofList
      (Civil.fieldsText 'T' ['+', '0', '0', ':', '0', '0'] year month day time))) = some (.ofInstant t)

/-- What a state's timestamps are written as is read back. -/
theorem Platform.ReadsIsoTexts.readsDatetimes (h : platform.ReadsIsoTexts) : platform.ReadsDatetimes := by
  intro t
  refine h _ _ _ _ t (Civil.isDate_ofDays (t.micros / Civil.microsPerDay)) (Nat.mod_lt _ (by decide)) ?_
  rw [Civil.toDays_ofDays, Nat.div_add_mod']

theorem Platform.readsIsoTexts_ofTable (digests : List (String × Digest)) :
    (Platform.ofTable digests).ReadsIsoTexts := by
  intro year month day time t hdate htime ht
  have hmonthLength : ∀ leap, ∀ i, (Civil.monthLengths leap).getD i 0 ≤ 31 := by
    intro leap i
    rw [List.getD_eq_getElem?_getD]
    cases hget : (Civil.monthLengths leap)[i]? with
    | none => exact Nat.zero_le _
    | some len =>
      have hall : ∀ leap, ∀ len ∈ Civil.monthLengths leap, len ≤ 31 := by decide
      exact hall leap len (List.mem_of_getElem? hget)
  have hday : day < 10 ^ 2 := by
    have := hdate.day_le.trans (hmonthLength _ _)
    omega
  have hmonth : month < 10 ^ 2 := by
    have := hdate.month_le
    omega
  have hyear : year < 10 ^ 4 := by
    by_contra hge
    have hfirst : 3652059 ≤ Civil.daysBeforeYear year := by
      unfold Civil.daysBeforeYear
      omega
    have hle := t.le_max
    simp only [ht, Civil.toDays, Civil.microsPerDay, maxMicros] at hle
    omega
  have hread := @Civil.readStamp_fieldsText 'T' ['+', '0', '0', ':', '0', '0'] (by decide) _ _ _ _ hyear hmonth
    hday htime
  simp [Platform.ofTable, readIsoformat, hread, ← ht, t.le_max]

namespace ReminderDraft

/-! ## Data that carries a draft -/

theorem lookup_insertMember (key j : String) (value : Json) (ms : Members) :
    (insertMember key value ms).lookup j = if j = key then some value else ms.lookup j := by
  induction ms with
  | nil => simp [insertMember, Dict.lookup_cons_ite]
  | cons e ms ih =>
    obtain ⟨k, v⟩ := e
    unfold insertMember
    split_ifs with hlt heq hj hj
    all_goals grind [Dict.lookup_cons_ite]

/-- The data of a state hold the fields of a draft, whatever else they hold. -/
def Carries (d : ReminderDraft platform) (data : Members) : Prop :=
  ∀ e ∈ toWorkflowData d, data.lookup e.1 = some e.2

theorem carries_mergeData (d : ReminderDraft platform) (prior : Members) :
    Carries d (WorkflowState.mergeData prior (toWorkflowData d)) := by
  intro e he
  simp only [toWorkflowData, List.mem_cons, List.not_mem_nil, or_false] at he
  rcases he with rfl | rfl | rfl | rfl | rfl <;>
    simp [WorkflowState.mergeData, toWorkflowData, lookup_insertMember]

/-- A draft is read from data that carry it. -/
theorem fromMapping_of_carries (hreads : platform.ReadsDatetimes) {d : ReminderDraft platform} {data : Members}
    (h : Carries d data) : fromMapping platform data = .ok d := by
  have htitle := h ("title", .str d.title.text) (by simp [toWorkflowData])
  have htimezone := h ("timezone", .str d.timezone.text) (by simp [toWorkflowData])
  have hstarts := h ("starts_at", .str d.startsAt.isoformat) (by simp [toWorkflowData])
  have hconfidence := h ("confidence", .num d.confidence.val) (by simp [toWorkflowData])
  have hnotify := h ("notify_at", CloudEvent.textJson (d.notifyAt.map Instant.isoformat))
    (by simp [toWorkflowData])
  have hread : ∀ t : Instant, readDatetime platform (.str t.isoformat) = .ok (.ofInstant t) := by
    intro t
    rw [readDatetime, hreads t]
  have hcreate := ReminderExtraction.create_fields d
  simp only at htitle htimezone hstarts hconfidence hnotify
  cases hn : d.notifyAt with
  | none =>
    rw [hn] at hcreate hnotify
    simpa [fromMapping, item, htitle, htimezone, hstarts, hconfidence, hnotify, hread, readText,
      CloudEvent.textJson] using hcreate
  | some t =>
    rw [hn] at hcreate hnotify
    simpa [fromMapping, item, htitle, htimezone, hstarts, hconfidence, hnotify, hread, readText,
      CloudEvent.textJson, Except.map] using hcreate

/-- Reading the draft back and making an extraction of it gives the extraction. -/
def Restores (data : Members) (e : ReminderExtraction platform) : Prop :=
  (fromMapping platform data >>= toExtraction) = .ok e

theorem restores_of_carries (hreads : platform.ReadsDatetimes) {e : ReminderExtraction platform}
    {data : Members} (h : Carries e data) : Restores data e := by
  rw [Restores, fromMapping_of_carries hreads h, except_ok_bind, toExtraction_eq]

/-- The draft stored by a transition restores its extraction: at once, once the state was resumed, and
when the data went through JSON text in between. -/
theorem draft_restores_extraction (hreads : platform.ReadsIsoTexts) (e : ReminderExtraction platform)
    (state : WorkflowState) (status : WorkflowStatus) (step : Option String) (now resumedAt : Instant) :
    ∃ d, fromExtraction e = .ok d ∧
      let stored := state.transition status step (toWorkflowData d) now
      Restores stored.data e ∧ Restores (stored.transition .running none [] resumedAt).data e ∧
      ∃ decoded, Json.loads (jsonText (.obj stored.data)) = some (.obj decoded) ∧ Restores decoded e ∧
        Restores (({ stored with data := decoded } : WorkflowState).transition .running none []
          resumedAt).data e := by
  have hcarries := restores_of_carries hreads.readsDatetimes (carries_mergeData e state.data)
  exact ⟨e, fromExtraction_eq e, hcarries, hcarries, _, Json.loads_dumps Json.readable_escapeAscii _, hcarries,
    hcarries⟩

/-- A reminder with a fraction of a second in its start. -/
def sampleExtraction : ReminderExtraction (.ofTable []) where
  title := .dentist
  timezone := ⟨"America/Bogota", by decide, by decide⟩
  isZone := by decide
  startsAt := ⟨63871000000000001, by decide⟩
  notifyAt := some ⟨63870000000000000, by decide⟩
  confidence := .sample

/-- A state whose data already hold another title. -/
def sampleState : WorkflowState where
  workflowId := "wf_1"
  tenantId := "tenant-1"
  workflowType := "reminder"
  status := .running
  step := "classify"
  idempotencyKey := "key-1"
  payloadFingerprint := none
  data := [("title", .str "Otro")]
  createdAt := ⟨0, by decide⟩
  updatedAt := ⟨0, by decide⟩

theorem sampleExtraction_restored : ∃ d, fromExtraction sampleExtraction = .ok d ∧
    Restores (sampleState.transition .waitingApproval none (toWorkflowData d) ⟨1, by decide⟩).data
      sampleExtraction := by
  obtain ⟨d, hd, hrestored, -⟩ := draft_restores_extraction (Platform.readsIsoTexts_ofTable [])
    sampleExtraction sampleState .waitingApproval none ⟨1, by decide⟩ ⟨2, by decide⟩
  exact ⟨d, hd, hrestored⟩

end ReminderDraft

end PersonalAssistant
