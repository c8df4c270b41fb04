import PersonalAssistant.Lib.Runs
import PersonalAssistant.Tracing.Events
import Mathlib.Data.Prod.Lex

/-!
# Trace recorders

The in-memory recorder and the recorder over PostgreSQL rows, and when a written event is found again: the
tenant is rewritten when an event is built and read as it is when events are listed.
-/
namespace PersonalAssistant

open Lib Privacy

variable (platform : Platform) (t : PrivacyTables) (limit : Nat)

/-- `_tenant_id_from_principal`. -/
def tenantIdFromPrincipal : Principal ⊕ String → Except PyError String
  | .inr tenantId => .ok tenantId
  | .inl principal => do
    requireTrustedPrincipal principal
    return principal.tenantId

/-! ## In memory -/

/-- The events of a `TraceRecorder`, the oldest first. -/
abbrev TraceRecorder := List TraceEvent

namespace TraceRecorder

/-- `TraceRecorder.write`. -/
def write (event : TraceEvent) : Op TraceRecorder PyError Unit := do
  Op.ofExcept (requireTraceCompleteness event)
  let safeEvent ← Op.ofExcept (event.forPersistence platform t limit)
  Op.modify (· ++ [safeEvent])

/-- `TraceRecorder.list_for_tenant`. -/
def listForTenant (events : TraceRecorder) (principal : Principal ⊕ String) :
    Except PyError (List TraceEvent) := do
  let tenantId ← tenantIdFromPrincipal principal
  (events.filter fun e => e.tenantId = tenantId).mapM (TraceEvent.forPersistence platform t limit)

/-- `TraceRecorder.list_for_run`. -/
def listForRun (events : TraceRecorder) (principal : Principal ⊕ String) (runId : String) :
    Except PyError (List TraceEvent) := do
  let tenantId ← tenantIdFromPrincipal principal
  let safeRunId := safeTraceRunId platform t.unicode runId
  (events.filter fun e => e.tenantId = tenantId ∧ e.runId = safeRunId).mapM
    (TraceEvent.forPersistence platform t limit)

end TraceRecorder

/-! ## PostgreSQL -/

/-- `model_dump(mode="json")` of a dump, with every object in key order. -/
def tracePayloadJson (e : TraceEvent) : Json :=
  .obj [("agent_id", .str e.agentId), ("context_refs", .arr (e.contextRefs.map .str)),
    ("error", sortKeys e.error), ("event_type", .str e.eventType.value),
    ("input_summary", sortKeys e.inputSummary), ("model", CloudEvent.textJson e.model),
    ("output_summary", sortKeys e.outputSummary),
    ("parent_event_id", CloudEvent.textJson e.parentEventId), ("run_id", .str e.runId),
    ("tenant_id", .str e.tenantId), ("timestamp", .str e.timestamp.json),
    ("tool_call", sortKeys e.toolCall), ("trace_id", .str e.traceId),
    ("validation", sortKeys e.validation)]

/-- A row of the trace table. -/
structure TraceRow where
  columns : TraceHeader
  fingerprint : Digest
  payload : TraceEvent

namespace PostgresTraceRecorder

/-- The row of an event: its columns, its payload and the payload's fingerprint. -/
def rowOf (event : TraceEvent) : Except PyError TraceRow := do
  let safeEvent ← event.forPersistence platform t limit
  let payload ← safeEvent.modelDump platform t limit
  return ⟨safeEvent.toTraceHeader, platform.fingerprint (tracePayloadJson payload), payload⟩

/-- The row with the primary key of another. -/
def conflicting (row : TraceRow) (rows : List TraceRow) : Option TraceRow :=
  rows.find? fun r => r.columns.tenantId = row.columns.tenantId ∧ r.columns.traceId = row.columns.traceId

/-- `PostgresTraceRecorder.write`. -/
def write (event : TraceEvent) : Op (List TraceRow) PyError Unit := do
  Op.ofExcept (requireTraceCompleteness event)
  let row ← Op.ofExcept (rowOf platform t limit event)
  match conflicting row (← Op.get) with
  | none => Op.modify (· ++ [row])
  | some existing =>
    if existing.fingerprint = row.fingerprint then pure ()
    else Op.raise (.assistant .conflict "trace idempotency conflict" (some row.columns.tenantId))

/-- `ORDER BY timestamp, trace_id`. -/
def order (row : TraceRow) : Nat ×ₗ String := toLex (row.columns.timestamp.micros, row.columns.traceId)

/-- The payloads of the rows a query selects, validated. -/
def select (p : TraceRow → Bool) (rows : List TraceRow) : Except PyError (List TraceEvent) :=
  ((rows.filter p).insertionSort fun a b => order a ≤ order b).mapM fun row =>
    row.payload.modelValidate platform t limit

/-- `PostgresTraceRecorder.list_for_tenant`. -/
def listForTenant (rows : List TraceRow) (principal : Principal ⊕ String) :
    Except PyError (List TraceEvent) := do
  let tenantId ← tenantIdFromPrincipal principal
  select platform t limit (fun row => row.columns.tenantId = tenantId) rows

/-- `PostgresTraceRecorder.list_for_run`. -/
def listForRun (rows : List TraceRow) (principal : Principal ⊕ String) (runId : String) :
    Except PyError (List TraceEvent) := do
  let tenantId ← tenantIdFromPrincipal principal
  let candidates := traceRunIdLookupCandidates platform t.unicode runId
  select platform t limit
    (fun row => row.columns.tenantId = tenantId ∧ candidates.contains row.columns.runId) rows

end PostgresTraceRecorder

/-! ## What is listed -/

section Listed

variable {platform t limit} {event : TraceEvent} {Row : Type} {rows : List Row}
  {f : Row → Except PyError TraceEvent} {stored : Row → TraceEvent}

/-- The answer lists the event. -/
def Lists (platform : Platform) (t : PrivacyTables) (limit : Nat) (answer : Except PyError (List TraceEvent))
    (event : TraceEvent) : Prop :=
  ∃ events, answer = .ok events ∧ ∃ e ∈ events, SameEvent platform t limit event e

theorem lists_mapM_of_mem (hrows : ∀ r ∈ rows, ∃ e, f r = .ok e ∧ SameEvent platform t limit (stored r) e)
    {r : Row} (hr : r ∈ rows) (hsame : SameEvent platform t limit event (stored r)) :
    Lists platform t limit (rows.mapM f) event := by
  obtain ⟨events, hevents, hrel⟩ := exists_mapM_ok hrows
  obtain ⟨e, he, hre⟩ := exists_of_mem_left hrel hr
  exact ⟨events, hevents, e, he, hsame.trans hre⟩

theorem header_of_lists_mapM
    (hrows : ∀ r ∈ rows, ∃ e, f r = .ok e ∧ SameEvent platform t limit (stored r) e)
    (h : Lists platform t limit (rows.mapM f) event) :
    ∃ r ∈ rows, (stored r).toTraceHeader = event.toTraceHeader := by
  obtain ⟨events, hevents, hrel⟩ := exists_mapM_ok hrows
  obtain ⟨events', hevents', e, he, hsame⟩ := h
  obtain rfl := Except.ok.inj (hevents.symm.trans hevents')
  obtain ⟨r, hr, hre⟩ := exists_of_mem_right hrel he
  exact ⟨r, hr, hre.header.symm.trans hsame.header⟩

end Listed

/-! ## Found in memory -/

namespace TraceRecorder

variable {platform t limit} {event : TraceEvent} {events : TraceRecorder}

/-- What a call does to the recorder. -/
theorem write_cases (event : TraceEvent) (events : TraceRecorder) :
    (write platform t limit event events).2 = events ∨
    ∃ e, event.forPersistence platform t limit = .ok e ∧
      write platform t limit event events = (.ok (), events ++ [e]) := by
  unfold write
  cases hcomplete : requireTraceCompleteness event with
  | error x => simp
  | ok u =>
    cases hsafe : event.forPersistence platform t limit with
    | error x => simp
    | ok e => simp

/-- The events of a recorder are settled, whatever was written. -/
theorem settled_after (written : List TraceEvent) :
    ∀ e ∈ after (write platform t limit) [] written, e.Settled platform t limit := by
  refine after_inv (fun events : TraceRecorder => ∀ e ∈ events, e.Settled platform t limit)
    (fun _ => True) ?_ (by simp) (by simp)
  intro event events _ hevents
  rcases write_cases event events with h | ⟨e, he, h⟩
  · rwa [h]
  · rw [h]
    intro e' he'
    rcases List.mem_append.mp he' with he' | he'
    · exact hevents e' he'
    · obtain rfl := List.mem_singleton.mp he'
      exact settled_of_forPersistence he

/-- What was recorded stays. -/
theorem mem_after {e : TraceEvent} (he : e ∈ events) (later : List TraceEvent) :
    e ∈ after (write platform t limit) events later := by
  refine after_inv (fun events : TraceRecorder => e ∈ events) (fun _ => True) ?_ he (by simp)
  intro event events _ he
  rcases write_cases event events with h | ⟨e', -, h⟩
  · rwa [h]
  · rw [h]
    exact List.mem_append_left _ he

/-- A complete event that the model let through is recorded. -/
theorem recorded (hsettled : event.Settled platform t (limit + 1))
    (hcomplete : requireTraceCompleteness event = .ok ()) (before later : List TraceEvent) :
    ∃ e ∈ after (write platform t (limit + 1)) [] (before ++ event :: later),
      SameEvent platform t (limit + 1) event e := by
  obtain ⟨e, he, hsame, -⟩ := hsettled.forPersistence
  refine ⟨e, ?_, hsame⟩
  have hwrite : ∀ events : TraceRecorder,
      write platform t (limit + 1) event events = (.ok (), events ++ [e]) := by
    intro events
    simp [write, hcomplete, he]
  rw [after_append, after_cons, hwrite]
  exact mem_after (List.mem_append_right _ (List.mem_singleton_self e)) later

/-- The recorder lists an event for the tenant and the run it was built with exactly when the tenant is a
safe identifier. -/
theorem found_iff {principal : Principal} (htrusted : principal.trusted = true) {runId : String}
    (hsettled : event.Settled platform t (limit + 1))
    (htenant : event.tenantId = safeIdentifier platform t.unicode principal.tenantId)
    (hrun : event.runId = safeTraceRunId platform t.unicode runId)
    (hcomplete : requireTraceCompleteness event = .ok ()) (before later : List TraceEvent) :
    Lists platform t (limit + 1) (listForTenant platform t (limit + 1)
        (after (write platform t (limit + 1)) [] (before ++ event :: later)) (.inl principal)) event ∧
      Lists platform t (limit + 1) (listForRun platform t (limit + 1)
        (after (write platform t (limit + 1)) [] (before ++ event :: later)) (.inl principal) runId) event ↔
    safeIdentifier platform t.unicode principal.tenantId = principal.tenantId := by
  obtain ⟨e, he, hsame⟩ := recorded hsettled hcomplete before later
  have hevents := @settled_after platform t (limit + 1) (before ++ event :: later)
  generalize after (write platform t (limit + 1)) [] (before ++ event :: later) = events at he hevents
  have hrows : ∀ p : TraceEvent → Bool, ∀ e ∈ events.filter p,
      ∃ e', TraceEvent.forPersistence platform t (limit + 1) e = .ok e' ∧
        SameEvent platform t (limit + 1) e e' := by
    intro p e he
    obtain ⟨e', he', hsame', -⟩ := (hevents e (List.mem_filter.mp he).1).forPersistence
    exact ⟨e', he', hsame'⟩
  have hprincipal : tenantIdFromPrincipal (.inl principal) = .ok principal.tenantId := by
    rw [tenantIdFromPrincipal, requireTrustedPrincipal_of_trusted htrusted]
    rfl
  have htenantId : e.tenantId = event.tenantId := congrArg TraceHeader.tenantId hsame.header
  have hrunId : e.runId = event.runId := congrArg TraceHeader.runId hsame.header
  simp only [listForTenant, listForRun, hprincipal, except_ok_bind]
  constructor
  · rintro ⟨hlists, -⟩
    obtain ⟨e', he', hheader⟩ := header_of_lists_mapM (hrows _) hlists
    have hfilter := (List.mem_filter.mp he').2
    rw [← htenant, ← congrArg TraceHeader.tenantId hheader]
    simpa using hfilter
  · intro hfixed
    have htenant' : e.tenantId = principal.tenantId := by rw [htenantId, htenant, hfixed]
    have hrun' : e.runId = safeTraceRunId platform t.unicode runId := by rw [hrunId, hrun]
    exact ⟨lists_mapM_of_mem (hrows _) (List.mem_filter.mpr ⟨he, by simpa using htenant'⟩) hsame,
      lists_mapM_of_mem (hrows _) (List.mem_filter.mpr ⟨he, by simp [htenant', hrun']⟩) hsame⟩

end TraceRecorder

/-! ## Found in PostgreSQL -/

namespace PostgresTraceRecorder

variable {platform t limit} {event : TraceEvent} {row : TraceRow} {rows : List TraceRow}

theorem SameEvent.of_payloadJson {e e' : TraceEvent} (h : tracePayloadJson e = tracePayloadJson e') :
    SameEvent platform t limit e e' := by
  simp only [tracePayloadJson, Json.obj.injEq, List.cons.injEq, Prod.mk.injEq, Json.str.injEq,
    Json.arr.injEq, true_and, and_true] at h
  obtain ⟨hagent, hrefs, herror, htype, hinput, hmodel, houtput, hparent, hrun, htenant, htime, htool,
    htrace, hvalidation⟩ := h
  exact {
    header := (TraceHeader.ext htrace hrun hagent (TraceEventType.value_injective htype)
      (Instant.json_injective htime) htenant (CloudEvent.textJson_injective hparent)).symm
    contextRefs := (List.map_injective_iff.mpr (fun _ _ => Json.str.inj) hrefs).symm
    model := (CloudEvent.textJson_injective hmodel).symm
    inputSummary := .single (.reorder hinput)
    toolCall := .single (.reorder htool)
    outputSummary := .single (.reorder houtput)
    validation := .single (.reorder hvalidation)
    error := .single (.reorder herror) }

/-- What a row says of the event it was made for. -/
structure RowFor (platform : Platform) (t : PrivacyTables) (limit : Nat) (event : TraceEvent)
    (row : TraceRow) : Prop where
  columns : row.columns = row.payload.toTraceHeader
  fingerprint : row.fingerprint = platform.fingerprint (tracePayloadJson row.payload)
  settled : row.payload.Settled platform t limit
  same : event.Settled platform t limit → SameEvent platform t limit event row.payload

theorem rowFor_of_rowOf (h : rowOf platform t (limit + 1) event = .ok row) :
    RowFor platform t (limit + 1) event row := by
  obtain ⟨e, he, h⟩ := except_bind_eq_ok.mp h
  obtain ⟨payload, hpayload, h⟩ := except_bind_eq_ok.mp h
  obtain rfl := Except.ok.inj h
  obtain ⟨payload', hpayload', hsame, hsettled⟩ := (settled_of_forPersistence he).sanitizeEvent
  obtain rfl := Except.ok.inj (hpayload.symm.trans hpayload')
  refine ⟨hsame.header.symm, rfl, hsettled, fun hevent => ?_⟩
  obtain ⟨e', he', hsame', -⟩ := hevent.forPersistence
  obtain rfl := Except.ok.inj (he.symm.trans he')
  exact hsame'.trans hsame

/-- What a call does to the rows: nothing, or it appends the row of its event. -/
theorem write_cases (event : TraceEvent) (rows : List TraceRow) :
    (write platform t limit event rows).2 = rows ∨
    ∃ row, rowOf platform t limit event = .ok row ∧
      (write platform t limit event rows).2 = rows ++ [row] := by
  unfold write
  cases hcomplete : requireTraceCompleteness event with
  | error x => simp
  | ok u =>
    cases hrow : rowOf platform t limit event with
    | error x => simp
    | ok row =>
      cases hconflict : conflicting row rows with
      | none => simp [hconflict]
      | some existing =>
        by_cases hfingerprint : existing.fingerprint = row.fingerprint <;> simp [hconflict, hfingerprint]

/-- Every row is the row of an event that was written. -/
theorem rows_after (written : List TraceEvent) :
    ∀ row ∈ after (write platform t limit) [] written, ∃ event ∈ written,
      rowOf platform t limit event = .ok row := by
  refine after_inv (fun rows : List TraceRow => ∀ row ∈ rows, ∃ event ∈ written,
    rowOf platform t limit event = .ok row) (· ∈ written) ?_ (by simp) (fun _ h => h)
  intro event rows hevent hrows
  rcases @write_cases platform t limit event rows with h | ⟨row, hrow, h⟩
  · rwa [h]
  · rw [h]
    intro row' hrow'
    rcases List.mem_append.mp hrow' with hrow' | hrow'
    · exact hrows row' hrow'
    · obtain rfl := List.mem_singleton.mp hrow'
      exact ⟨event, hevent, hrow⟩

theorem mem_after (hrow : row ∈ rows) (later : List TraceEvent) :
    row ∈ after (write platform t limit) rows later := by
  refine after_inv (fun rows : List TraceRow => row ∈ rows) (fun _ => True) ?_ hrow (by simp)
  intro event rows _ hrow
  rcases @write_cases platform t limit event rows with h | ⟨row', -, h⟩
  · rwa [h]
  · rw [h]
    exact List.mem_append_left _ hrow

/-- The texts the recorder hashes while it writes events. -/
def hashedTexts (platform : Platform) (t : PrivacyTables) (limit : Nat) (written : List TraceEvent) :
    Set String :=
  {text | ∃ event ∈ written, ∃ row, rowOf platform t limit event = .ok row ∧
    text = jsonText (tracePayloadJson row.payload)}

/-- A write that returns leaves a row of the event, its own or one with the same payload. -/
theorem recorded (hsettled : event.Settled platform t (limit + 1)) (before : List TraceEvent)
    (hsha : Set.InjOn platform.sha256 (hashedTexts platform t (limit + 1) (event :: before)))
    (hwrite : (write platform t (limit + 1) event (after (write platform t (limit + 1)) [] before)).1 =
      .ok ()) :
    ∃ row ∈ (write platform t (limit + 1) event (after (write platform t (limit + 1)) [] before)).2,
      SameEvent platform t (limit + 1) event row.payload := by
  have hrows := @rows_after platform t (limit + 1) before
  generalize after (write platform t (limit + 1)) [] before = rows at hwrite hrows
  cases hcomplete : requireTraceCompleteness event with
  | error x => simp [write, hcomplete] at hwrite
  | ok u =>
    cases hrow : rowOf platform t (limit + 1) event with
    | error x => simp [write, hcomplete, hrow] at hwrite
    | ok row =>
      have hfor := rowFor_of_rowOf hrow
      cases hconflict : conflicting row rows with
      | none =>
        refine ⟨row, ?_, hfor.same hsettled⟩
        simp [write, hcomplete, hrow, hconflict]
      | some existing =>
        have hmem : existing ∈ rows := List.mem_of_find?_eq_some hconflict
        have hfingerprint : existing.fingerprint = row.fingerprint := by
          by_contra hne
          simp [write, hcomplete, hrow, hconflict, hne] at hwrite
        obtain ⟨event', hevent', hrow'⟩ := hrows existing hmem
        have hfor' := rowFor_of_rowOf hrow'
        have htext := hsha ⟨event', List.mem_cons_of_mem _ hevent', existing, hrow', rfl⟩
          ⟨event, List.mem_cons_self, row, hrow, rfl⟩
          (hfor'.fingerprint.symm.trans (hfingerprint.trans hfor.fingerprint))
        refine ⟨existing, ?_, (hfor.same hsettled).trans
          (SameEvent.of_payloadJson (jsonText_injective htext).symm)⟩
        simpa [write, hcomplete, hrow, hconflict, hfingerprint] using hmem

/-- After a write that returned, the rows list the event for the tenant and the run it was built with
exactly when the tenant is a safe identifier. -/
theorem found_iff {principal : Principal} (htrusted : principal.trusted = true) {runId : String}
    (hsettled : event.Settled platform t (limit + 1))
    (htenant : event.tenantId = safeIdentifier platform t.unicode principal.tenantId)
    (hrun : event.runId = safeTraceRunId platform t.unicode runId) (before later : List TraceEvent)
    (hsha : Set.InjOn platform.sha256 (hashedTexts platform t (limit + 1) (event :: before)))
    (hwrite : (write platform t (limit + 1) event (after (write platform t (limit + 1)) [] before)).1 =
      .ok ()) :
    Lists platform t (limit + 1) (listForTenant platform t (limit + 1)
        (after (write platform t (limit + 1)) [] (before ++ event :: later)) (.inl principal)) event ∧
      Lists platform t (limit + 1) (listForRun platform t (limit + 1)
        (after (write platform t (limit + 1)) [] (before ++ event :: later)) (.inl principal) runId) event ↔
    safeIdentifier platform t.unicode principal.tenantId = principal.tenantId := by
  obtain ⟨row, hrow, hsame⟩ := recorded hsettled before hsha hwrite
  have hmem : row ∈ after (write platform t (limit + 1)) [] (before ++ event :: later) := by
    rw [after_append, after_cons]
    exact mem_after hrow later
  have hrows := @rows_after platform t (limit + 1) (before ++ event :: later)
  generalize after (write platform t (limit + 1)) [] (before ++ event :: later) = rows at hmem hrows
  have hfor : ∀ row ∈ rows, row.columns = row.payload.toTraceHeader ∧
      row.payload.Settled platform t (limit + 1) := by
    intro row hrow
    obtain ⟨event', -, hrow'⟩ := hrows row hrow
    exact ⟨(rowFor_of_rowOf hrow').columns, (rowFor_of_rowOf hrow').settled⟩
  have hselected : ∀ p : TraceRow → Bool, ∀ row ∈
      (rows.filter p).insertionSort (fun a b => order a ≤ order b),
      ∃ e, TraceEvent.modelValidate platform t (limit + 1) row.payload = .ok e ∧
        SameEvent platform t (limit + 1) row.payload e := by
    intro p row hrow
    rw [List.mem_insertionSort] at hrow
    obtain ⟨e, he, hsame, -⟩ := (hfor row (List.mem_filter.mp hrow).1).2.modelValidate
    exact ⟨e, he, hsame⟩
  have hprincipal : tenantIdFromPrincipal (.inl principal) = .ok principal.tenantId := by
    rw [tenantIdFromPrincipal, requireTrustedPrincipal_of_trusted htrusted]
    rfl
  have hcolumns := (hfor row hmem).1.trans hsame.header
  have htenantId : row.columns.tenantId = event.tenantId := congrArg TraceHeader.tenantId hcolumns
  have hrunId : row.columns.runId = event.runId := congrArg TraceHeader.runId hcolumns
  simp only [listForTenant, listForRun, hprincipal, except_ok_bind, select]
  constructor
  · rintro ⟨hlists, -⟩
    obtain ⟨row', hrow', hheader⟩ := header_of_lists_mapM (hselected _) hlists
    rw [List.mem_insertionSort, List.mem_filter] at hrow'
    rw [← htenant, ← congrArg TraceHeader.tenantId hheader,
      ← congrArg TraceHeader.tenantId (hfor row' hrow'.1).1]
    simpa using hrow'.2
  · intro hfixed
    have htenant' : row.columns.tenantId = principal.tenantId := by rw [htenantId, htenant, hfixed]
    have hcandidate : row.columns.runId ∈ traceRunIdLookupCandidates platform t.unicode runId := by
      rw [hrunId, hrun, ← safeTraceRunId_strip]
      unfold traceRunIdLookupCandidates
      simp only
      split_ifs <;> simp
    have hlisted : ∀ p : TraceRow → Bool, p row = true →
        row ∈ (rows.filter p).insertionSort (fun a b => order a ≤ order b) := by
      intro p hp
      rw [List.mem_insertionSort, List.mem_filter]
      exact ⟨hmem, hp⟩
    exact ⟨lists_mapM_of_mem (hselected _) (hlisted _ (by simpa using htenant')) hsame,
      lists_mapM_of_mem (hselected _) (hlisted _ (by simpa [htenant'] using hcandidate)) hsame⟩

end PostgresTraceRecorder

/-! ## Written and found -/

section Found

variable (principal : Principal) (runId : String) (event : TraceEvent) (before later : List TraceEvent)

/-- Written to the in-memory recorder between others, the event is listed. -/
def FoundInMemory : Prop :=
  let events := after (TraceRecorder.write platform t limit) [] (before ++ event :: later)
  Lists platform t limit (TraceRecorder.listForTenant platform t limit events (.inl principal)) event ∧
    Lists platform t limit (TraceRecorder.listForRun platform t limit events (.inl principal) runId) event

/-- Written to the rows between others, the event is listed. -/
def FoundInPostgres : Prop :=
  let rows := after (PostgresTraceRecorder.write platform t limit) [] (before ++ event :: later)
  Lists platform t limit (PostgresTraceRecorder.listForTenant platform t limit rows (.inl principal)) event ∧
    Lists platform t limit
      (PostgresTraceRecorder.listForRun platform t limit rows (.inl principal) runId) event

/-- An event built with the tenant of a principal is found for the principal exactly when the tenant is a
safe identifier. -/
theorem found_iff_safeIdentifier (htrusted : principal.trusted = true) {Ref : Type} [DecidableEq Ref]
    (g : ObjectGraph Ref) (raw : TraceFields Ref Ref) (htenant : raw.tenantId = principal.tenantId)
    (hbuilt : TraceEvent.validate platform t (limit + 1) g raw = .ok event)
    (hcomplete : requireTraceCompleteness event = .ok ()) :
    (FoundInMemory platform t (limit + 1) principal raw.runId event before later ↔
      safeIdentifier platform t.unicode principal.tenantId = principal.tenantId) ∧
    (Set.InjOn platform.sha256
        (PostgresTraceRecorder.hashedTexts platform t (limit + 1) (event :: before)) →
      (PostgresTraceRecorder.write platform t (limit + 1) event
        (after (PostgresTraceRecorder.write platform t (limit + 1)) [] before)).1 = .ok () →
      (FoundInPostgres platform t (limit + 1) principal raw.runId event before later ↔
        safeIdentifier platform t.unicode principal.tenantId = principal.tenantId)) := by
  have hheader := header_of_validate hbuilt
  have htenantId : event.tenantId = safeIdentifier platform t.unicode principal.tenantId := by
    simp only [hheader, TraceHeader.safe, ← htenant]
  have hrunId : event.runId = safeTraceRunId platform t.unicode raw.runId := by
    simp only [hheader, TraceHeader.safe]
  have hsettled := settled_of_validate hbuilt
  exact ⟨TraceRecorder.found_iff htrusted hsettled htenantId hrunId hcomplete before later,
    PostgresTraceRecorder.found_iff htrusted hsettled htenantId hrunId before later⟩

end Found

/-! ## On an event -/

/-- The values of an event of a tenant. -/
def sampleTrace (tenantId : String) : TraceFields Json Json where
  traceId := "trace-1"
  runId := "run-1"
  agentId := "orchestrator"
  eventType := .agentStarted
  timestamp := ⟨0, Nat.zero_le _⟩
  tenantId := tenantId
  parentEventId := none
  inputSummary := .obj [("status", .str "ok")]
  contextRefs := .arr []
  toolCall := .obj []
  model := none
  outputSummary := .obj []
  validation := .obj []
  error := .obj []

/-- The trace of a tenant whose name is an identifier is found by both recorders. -/
theorem found_sample : ∃ event,
    FoundInMemory (.ofTable []) PrivacyTables.sample 1 Principal.sample "run-1" event [] [] ∧
    FoundInPostgres (.ofTable []) PrivacyTables.sample 1 Principal.sample "run-1" event [] [] := by
  obtain ⟨event, hbuilt, hcomplete, hwrite⟩ : ∃ event,
      TraceEvent.validate (.ofTable []) PrivacyTables.sample 1 (documents PrivacyTables.sample)
        (sampleTrace "tenant-1") = .ok event ∧ requireTraceCompleteness event = .ok () ∧
      (PostgresTraceRecorder.write (.ofTable []) PrivacyTables.sample 1 event []).1 = .ok () :=
    ⟨_, rfl, rfl, rfl⟩
  have hsafe : safeIdentifier (.ofTable []) PrivacyTables.sample.unicode Principal.sample.tenantId =
      Principal.sample.tenantId := by decide +kernel
  have hfound := found_iff_safeIdentifier _ _ _ Principal.sample event [] [] rfl
    (documents PrivacyTables.sample) (sampleTrace "tenant-1") rfl hbuilt hcomplete
  have hsha : Set.InjOn (Platform.ofTable []).sha256
      (PostgresTraceRecorder.hashedTexts (.ofTable []) PrivacyTables.sample 1 [event]) := by
    rintro _ ⟨e, he, row, hrow, rfl⟩ _ ⟨e', he', row', hrow', rfl⟩ -
    obtain rfl := List.mem_singleton.mp he
    obtain rfl := List.mem_singleton.mp he'
    obtain rfl := Except.ok.inj (hrow.symm.trans hrow')
    rfl
  exact ⟨event, hfound.1.mpr hsafe, (hfound.2 hsha hwrite).mpr hsafe⟩

def acmePrincipal : Principal :=
  .forTest Principal.sample.principal ⟨"Acme Corp", by decide, by decide, by decide⟩ .P6

/-- An event of a tenant whose name has a blank is not found. -/
theorem not_found_acme : ¬ ∀ (principal : Principal) (raw : TraceFields Json Json) (event : TraceEvent),
    principal.trusted = true → raw.tenantId = principal.tenantId →
    TraceEvent.validate (.ofTable []) PrivacyTables.sample 1 (documents PrivacyTables.sample) raw =
      .ok event →
    requireTraceCompleteness event = .ok () →
    FoundInMemory (.ofTable []) PrivacyTables.sample 1 principal raw.runId event [] [] := by
  intro h
  obtain ⟨event, hbuilt, hcomplete⟩ : ∃ event,
      TraceEvent.validate (.ofTable []) PrivacyTables.sample 1 (documents PrivacyTables.sample)
        (sampleTrace "Acme Corp") = .ok event ∧ requireTraceCompleteness event = .ok () := ⟨_, rfl, rfl⟩
  have htenant : event.tenantId = safeIdentifier (.ofTable []) .ascii "Acme Corp" :=
    congrArg TraceHeader.tenantId (header_of_validate hbuilt)
  have hrun : event.runId = safeTraceRunId (.ofTable []) .ascii "run-1" :=
    congrArg TraceHeader.runId (header_of_validate hbuilt)
  have hfound := h acmePrincipal (sampleTrace "Acme Corp") event rfl rfl hbuilt hcomplete
  have hsafe := (@TraceRecorder.found_iff (.ofTable []) PrivacyTables.sample 0 event acmePrincipal rfl "run-1"
    (settled_of_validate hbuilt) htenant hrun hcomplete [] []).mp hfound
  exact absurd hsafe (by decide +kernel)

end PersonalAssistant
