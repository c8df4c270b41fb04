import Mathlib.Data.List.Sort
import Mathlib.Logic.Relation
import PersonalAssistant.Dto.Tracing
import PersonalAssistant.Lib.Effect
import PersonalAssistant.Privacy.Rounds

/-!
# Trace events

`validate` is what the model does with the values it is given, `modelDump` what it does before it hands
them out: both pass every field through the same function of the trace boundary.
-/
namespace PersonalAssistant

open Lib Privacy

/-- The fields of an event that are neither metadata nor references. -/
@[ext] structure TraceHeader where
  traceId : String
  runId : String
  agentId : String
  eventType : TraceEventType
  timestamp : Instant
  tenantId : String
  parentEventId : Option String
deriving DecidableEq

/-- The fields of an event, with its metadata and its context references as they are held. -/
structure TraceFields (Metadata Refs : Type) extends TraceHeader where
  inputSummary : Metadata
  contextRefs : Refs
  toolCall : Metadata
  model : Option String
  outputSummary : Metadata
  validation : Metadata
  error : Metadata

/-- An event as the model holds it. -/
abbrev TraceEvent := TraceFields Json (List String)

/-! ## Completeness -/

/-- The fields an event may be required to have. -/
inductive TraceField where
  | inputSummary
  | contextRefs
  | model
  | toolCall
  | validation
  | outputSummary
  | error

namespace TraceField

def name : TraceField → String
  | inputSummary => "input_summary"
  | contextRefs => "context_refs"
  | model => "model"
  | toolCall => "tool_call"
  | validation => "validation"
  | outputSummary => "output_summary"
  | error => "error"

/-- `bool(value)` of a metadata field. -/
def truthy : Json → Bool
  | .obj [] => false
  | _ => true

/-- `bool(getattr(event, field_name))`. -/
def present (e : TraceEvent) : TraceField → Bool
  | inputSummary => truthy e.inputSummary
  | contextRefs => !e.contextRefs.isEmpty
  | model => e.model.any fun s => s ≠ ""
  | toolCall => truthy e.toolCall
  | validation => truthy e.validation
  | outputSummary => truthy e.outputSummary
  | error => truthy e.error

end TraceField

/-- `REQUIRED_TRACE_FIELDS`. -/
def requiredTraceFields : TraceEventType → List TraceField
  | .agentStarted => [.inputSummary]
  | .contextSelected => [.contextRefs]
  | .llmCalled => [.model]
  | .toolCalled => [.toolCall]
  | .guardrailChecked => [.validation]
  | .approvalRequested => [.toolCall]
  | .agentCompleted => [.outputSummary]
  | .agentFailed => [.error]

/-- `require_trace_completeness`. -/
def requireTraceCompleteness (e : TraceEvent) : Except PyError Unit :=
  let missing := (requiredTraceFields e.eventType).filter fun field => !field.present e
  if missing = [] then .ok ()
  else .error (.valueError ("incomplete trace event: " ++ e.eventType.value ++ " requires " ++
    ", ".intercalate (missing.map TraceField.name)))

/-! ## The boundary of the model -/

section Boundary

variable (platform : Platform) (t : PrivacyTables) (limit : Nat)

/-- The identifiers of a header, as the model lets them through. -/
def TraceHeader.safe (h : TraceHeader) : TraceHeader where
  traceId := safeIdentifier platform t.unicode h.traceId
  runId := safeTraceRunId platform t.unicode h.runId
  agentId := safeIdentifier platform t.unicode h.agentId
  eventType := h.eventType
  timestamp := h.timestamp
  tenantId := safeIdentifier platform t.unicode h.tenantId
  parentEventId := h.parentEventId.map (safeIdentifier platform t.unicode)

variable {Ref : Type} [DecidableEq Ref]

/-- `if sanitized`. -/
def keptRef : Json → Option String
  | .str s => if s = "" then none else some s
  | _ => none

/-- `safe_context_refs`. -/
def safeContextRefs (g : ObjectGraph Ref) (r : Ref) : Option (List String) :=
  match (g.view r).items? with
  | none => some []
  | some items => do
    let values ← (items.take maxItems).mapM (categoryOf t g)
    return values.filterMap keptRef

/-- What the boundary raises is a `RecursionError`, or a `ValueError` that the model reports as its own: it
is not kept which. -/
def orRaise {α : Type} : Option α → Except PyError α
  | some a => .ok a
  | none => .error (.external "Exception")

/-- `redact_trace_mapping` of a field. -/
def redactField (g : ObjectGraph Ref) (r : Ref) : Except PyError Json :=
  orRaise (redactTraceMapping platform t g limit r)

/-- Every field through the boundary. -/
def sanitizeEvent (g : ObjectGraph Ref) (f : TraceFields Ref Ref) : Except PyError TraceEvent := do
  let inputSummary ← redactField platform t limit g f.inputSummary
  let contextRefs ← orRaise (safeContextRefs t g f.contextRefs)
  let toolCall ← redactField platform t limit g f.toolCall
  let outputSummary ← redactField platform t limit g f.outputSummary
  let validation ← redactField platform t limit g f.validation
  let error ← redactField platform t limit g f.error
  return ⟨f.toTraceHeader.safe platform t, inputSummary, contextRefs, toolCall,
    f.model.map (safeCategory t.unicode), outputSummary, validation, error⟩

namespace TraceEvent

/-- `TraceEvent.model_validate`. -/
def validate (g : ObjectGraph Ref) (f : TraceFields Ref Ref) : Except PyError TraceEvent := do
  let e ← sanitizeEvent platform t limit g f
  if e.agentId = "" ∨ e.tenantId = "" then .error (.validationError "TraceEvent") else .ok e

/-- The fields of an event as objects. -/
def fields (e : TraceEvent) : TraceFields Json Json :=
  { e with contextRefs := .arr (e.contextRefs.map .str) }

/-- `event.model_dump()`. -/
def modelDump (e : TraceEvent) : Except PyError TraceEvent :=
  sanitizeEvent platform t limit (documents t) (fields e)

/-- `TraceEvent.model_validate` of a dump. -/
def modelValidate (e : TraceEvent) : Except PyError TraceEvent :=
  validate platform t limit (documents t) (fields e)

/-- `for_persistence`. -/
def forPersistence (e : TraceEvent) : Except PyError TraceEvent := do
  modelValidate platform t limit (← modelDump platform t limit e)

end TraceEvent

end Boundary

/-! ## Key order -/

mutual

/-- A document with the members of every object in key order. -/
def sortKeys : Json → Json
  | .arr items => .arr (sortItems items)
  | .obj members => .obj ((sortMembers members).insertionSort fun a b => a.1 ≤ b.1)
  | j => j

def sortItems : List Json → List Json
  | [] => []
  | j :: items => sortKeys j :: sortItems items

def sortMembers : Members → Members
  | [] => []
  | (key, j) :: members => (key, sortKeys j) :: sortMembers members

end

/-! ## Further passes -/

section Passes

variable {platform : Platform} {t : PrivacyTables} {limit : Nat} {Ref : Type} [DecidableEq Ref]
  {g : ObjectGraph Ref} {j : Json} {e e' : TraceEvent} {f : TraceFields Ref Ref}

theorem TraceHeader.safe_safe (h : TraceHeader) : (h.safe platform t).safe platform t = h.safe platform t := by
  have hparent : ((h.parentEventId.map (safeIdentifier platform t.unicode)).map
      (safeIdentifier platform t.unicode)) = h.parentEventId.map (safeIdentifier platform t.unicode) := by
    cases h.parentEventId with
    | none => rfl
    | some id => exact congrArg some (safeIdentifier_again id)
  simp only [TraceHeader.safe, safeIdentifier_again, safeTraceRunId_again, hparent]

/-- A document the redactor has returned. -/
def RedactorOutput (platform : Platform) (t : PrivacyTables) (limit : Nat) (j : Json) : Prop :=
  ∃ (Ref : Type) (_ : DecidableEq Ref) (g : ObjectGraph Ref) (r : Ref),
    redactTraceMapping platform t g limit r = some j

/-- One pass over a metadata field, which may also reorder the members of its mappings. -/
inductive Pass (platform : Platform) (t : PrivacyTables) (limit : Nat) : Json → Json → Prop where
  | redact {j j' : Json} : redactTraceMapping platform t (documents t) limit j = some j' →
      Pass platform t limit j j'
  | reorder {j j' : Json} : sortKeys j = sortKeys j' → Pass platform t limit j j'

/-- The same event, with its metadata any number of passes further. -/
structure SameEvent (platform : Platform) (t : PrivacyTables) (limit : Nat) (e e' : TraceEvent) : Prop where
  header : e'.toTraceHeader = e.toTraceHeader
  contextRefs : e'.contextRefs = e.contextRefs
  model : e'.model = e.model
  inputSummary : Relation.ReflTransGen (Pass platform t limit) e.inputSummary e'.inputSummary
  toolCall : Relation.ReflTransGen (Pass platform t limit) e.toolCall e'.toolCall
  outputSummary : Relation.ReflTransGen (Pass platform t limit) e.outputSummary e'.outputSummary
  validation : Relation.ReflTransGen (Pass platform t limit) e.validation e'.validation
  error : Relation.ReflTransGen (Pass platform t limit) e.error e'.error

theorem SameEvent.trans {e'' : TraceEvent} (h : SameEvent platform t limit e e')
    (h' : SameEvent platform t limit e' e'') : SameEvent platform t limit e e'' where
  header := h'.header.trans h.header
  contextRefs := h'.contextRefs.trans h.contextRefs
  model := h'.model.trans h.model
  inputSummary := h.inputSummary.trans h'.inputSummary
  toolCall := h.toolCall.trans h'.toolCall
  outputSummary := h.outputSummary.trans h'.outputSummary
  validation := h.validation.trans h'.validation
  error := h.error.trans h'.error

/-- What the model has let through. -/
structure TraceEvent.Settled (platform : Platform) (t : PrivacyTables) (limit : Nat) (e : TraceEvent) :
    Prop where
  header : e.toTraceHeader.safe platform t = e.toTraceHeader
  contextRefs : safeContextRefs t (documents t) (.arr (e.contextRefs.map .str)) = some e.contextRefs
  model : e.model.map (safeCategory t.unicode) = e.model
  agentId : e.agentId ≠ ""
  tenantId : e.tenantId ≠ ""
  inputSummary : RedactorOutput platform t limit e.inputSummary
  toolCall : RedactorOutput platform t limit e.toolCall
  outputSummary : RedactorOutput platform t limit e.outputSummary
  validation : RedactorOutput platform t limit e.validation
  error : RedactorOutput platform t limit e.error

section Redact

theorem RedactorOutput.again (h : RedactorOutput platform t (limit + 1) j) :
    ∃ j', redactField platform t (limit + 1) (documents t) j = .ok j' ∧
      Relation.ReflTransGen (Pass platform t (limit + 1)) j j' ∧
      RedactorOutput platform t (limit + 1) j' := by
  obtain ⟨Ref, _, g, r, hr⟩ := h
  obtain ⟨j', hj'⟩ := Option.isSome_iff_exists.mp (isSome_redactTraceMapping_again hr)
  exact ⟨j', by rw [redactField, hj', orRaise], .single (.redact hj'), Json, _, documents t, j, hj'⟩

theorem eq_some_of_orRaise {α : Type} {x : Option α} {a : α} (h : orRaise x = .ok a) : x = some a := by
  cases x with
  | none => cases h
  | some b =>
    cases h
    rfl

theorem redactorOutput_of_redactField {r : Ref} (h : redactField platform t limit g r = .ok j) :
    RedactorOutput platform t limit j :=
  ⟨Ref, _, g, r, eq_some_of_orRaise h⟩

end Redact

theorem categoryOf_str (s : String) :
    categoryOf t (documents t) (.str s) = some (.str (safeCategory t.unicode s)) := by
  simp [categoryOf, documentView]

/-- A reference that is let through is a category that is kept. -/
theorem keptRef_categoryOf {item : Ref} {j : Json} {s : String} (hj : categoryOf t g item = some j)
    (hs : keptRef j = some s) : s ≠ "" ∧ safeCategory t.unicode s = s := by
  unfold categoryOf at hj
  split at hj
  · cases hj
    cases hs
  · obtain ⟨value, -, hvalue⟩ := Option.bind_eq_some_iff.mp hj
    cases hvalue
    simp only [keptRef] at hs
    split_ifs at hs with hempty
    obtain rfl := Option.some.inj hs
    exact ⟨hempty, safeCategory_again _⟩

/-- The references that are let through are let through again. -/
theorem safeContextRefs_again {r : Ref} {refs : List String} (h : safeContextRefs t g r = some refs) :
    safeContextRefs t (documents t) (.arr (refs.map .str)) = some refs := by
  have hsafe : refs.length ≤ maxItems ∧ ∀ s ∈ refs, s ≠ "" ∧ safeCategory t.unicode s = s := by
    unfold safeContextRefs at h
    split at h
    · cases h
      simp
    · rename_i items _
      obtain ⟨values, hvalues, hout⟩ := Option.bind_eq_some_iff.mp h
      cases hout
      have hlength := (mapM_eq_some_iff.mp hvalues).length_eq
      refine ⟨(List.length_filterMap_le _ _).trans (hlength ▸ List.length_take_le _ _), ?_⟩
      intro s hs
      obtain ⟨j, hj, hkept⟩ := List.mem_filterMap.mp hs
      obtain ⟨item, -, hitem⟩ := exists_of_mem_mapM hvalues hj
      exact keptRef_categoryOf hitem hkept
  obtain ⟨hlength, hrefs⟩ := hsafe
  have htake : (refs.map Json.str).take maxItems = refs.map .str :=
    List.take_of_length_le (by simpa using hlength)
  have hitems : ((documents t).view (.arr (refs.map .str))).items? = some (refs.map .str) := rfl
  have hvalues : (refs.map Json.str).mapM (categoryOf t (documents t)) = some (refs.map .str) := by
    rw [mapM_eq_some_iff, List.forall₂_same]
    intro j hj
    obtain ⟨s, hs, rfl⟩ := List.mem_map.mp hj
    rw [categoryOf_str, (hrefs s hs).2]
  have hkept : (refs.map Json.str).filterMap keptRef = refs := by
    rw [List.filterMap_map]
    conv_rhs => rw [← @List.filterMap_some String refs]
    refine List.filterMap_congr fun s hs => ?_
    simp [keptRef, (hrefs s hs).1]
  rw [safeContextRefs, hitems]
  simp only [htake, hvalues, Option.bind_eq_bind, Option.bind_some, hkept]
  rfl

/-- What a pass returns is settled but for an empty identifier. -/
theorem settled_of_sanitizeEvent (h : sanitizeEvent platform t limit g f = .ok e) (hagent : e.agentId ≠ "")
    (htenant : e.tenantId ≠ "") : e.Settled platform t limit := by
  unfold sanitizeEvent at h
  obtain ⟨a, ha, h⟩ := except_bind_eq_ok.mp h
  obtain ⟨refs, hrefs, h⟩ := except_bind_eq_ok.mp h
  obtain ⟨b, hb, h⟩ := except_bind_eq_ok.mp h
  obtain ⟨c, hc, h⟩ := except_bind_eq_ok.mp h
  obtain ⟨d, hd, h⟩ := except_bind_eq_ok.mp h
  obtain ⟨x, hx, h⟩ := except_bind_eq_ok.mp h
  obtain rfl := Except.ok.inj h
  have hmodel : (f.model.map (safeCategory t.unicode)).map (safeCategory t.unicode) =
      f.model.map (safeCategory t.unicode) := by
    cases f.model with
    | none => rfl
    | some model => exact congrArg some (safeCategory_again model)
  exact {
    header := TraceHeader.safe_safe _
    contextRefs := safeContextRefs_again (eq_some_of_orRaise hrefs)
    model := hmodel
    agentId := hagent
    tenantId := htenant
    inputSummary := redactorOutput_of_redactField ha
    toolCall := redactorOutput_of_redactField hb
    outputSummary := redactorOutput_of_redactField hc
    validation := redactorOutput_of_redactField hd
    error := redactorOutput_of_redactField hx }

/-- A settled event passes, and is the same event. -/
theorem TraceEvent.Settled.sanitizeEvent (h : e.Settled platform t (limit + 1)) :
    ∃ e', sanitizeEvent platform t (limit + 1) (documents t) (fields e) = .ok e' ∧
      SameEvent platform t (limit + 1) e e' ∧ e'.Settled platform t (limit + 1) := by
  obtain ⟨a, ha, hpassa, -⟩ := h.inputSummary.again
  obtain ⟨b, hb, hpassb, -⟩ := h.toolCall.again
  obtain ⟨c, hc, hpassc, -⟩ := h.outputSummary.again
  obtain ⟨d, hd, hpassd, -⟩ := h.validation.again
  obtain ⟨x, hx, hpassx, -⟩ := h.error.again
  have hout : PersonalAssistant.sanitizeEvent platform t (limit + 1) (documents t) (fields e) =
      .ok ⟨e.toTraceHeader, a, e.contextRefs, b, e.model, c, d, x⟩ := by
    have hheader : (fields e).toTraceHeader.safe platform t = e.toTraceHeader := h.header
    have hrefs : safeContextRefs t (documents t) (fields e).contextRefs = some e.contextRefs :=
      h.contextRefs
    have hmodel : (fields e).model.map (safeCategory t.unicode) = e.model := h.model
    have ha' : redactField platform t (limit + 1) (documents t) (fields e).inputSummary = .ok a := ha
    have hb' : redactField platform t (limit + 1) (documents t) (fields e).toolCall = .ok b := hb
    have hc' : redactField platform t (limit + 1) (documents t) (fields e).outputSummary = .ok c := hc
    have hd' : redactField platform t (limit + 1) (documents t) (fields e).validation = .ok d := hd
    have hx' : redactField platform t (limit + 1) (documents t) (fields e).error = .ok x := hx
    rw [PersonalAssistant.sanitizeEvent, ha', hb', hc', hd', hx', hheader, hrefs, hmodel]
    rfl
  refine ⟨_, hout, ⟨rfl, rfl, rfl, hpassa, hpassb, hpassc, hpassd, hpassx⟩, ?_⟩
  exact settled_of_sanitizeEvent hout h.agentId h.tenantId

theorem header_of_validate (h : TraceEvent.validate platform t limit g f = .ok e) :
    e.toTraceHeader = f.toTraceHeader.safe platform t := by
  obtain ⟨e', he', h⟩ := except_bind_eq_ok.mp h
  split_ifs at h
  obtain rfl := Except.ok.inj h
  unfold sanitizeEvent at he'
  obtain ⟨a, -, h⟩ := except_bind_eq_ok.mp he'
  obtain ⟨refs, -, h⟩ := except_bind_eq_ok.mp h
  obtain ⟨b, -, h⟩ := except_bind_eq_ok.mp h
  obtain ⟨c, -, h⟩ := except_bind_eq_ok.mp h
  obtain ⟨d, -, h⟩ := except_bind_eq_ok.mp h
  obtain ⟨x, -, h⟩ := except_bind_eq_ok.mp h
  obtain rfl := Except.ok.inj h
  rfl

theorem settled_of_validate (h : TraceEvent.validate platform t limit g f = .ok e) :
    e.Settled platform t limit := by
  obtain ⟨e', he', h⟩ := except_bind_eq_ok.mp h
  split_ifs at h with hempty
  cases h
  rw [not_or] at hempty
  exact settled_of_sanitizeEvent he' hempty.1 hempty.2

theorem TraceEvent.Settled.modelValidate (h : e.Settled platform t (limit + 1)) :
    ∃ e', TraceEvent.modelValidate platform t (limit + 1) e = .ok e' ∧
      SameEvent platform t (limit + 1) e e' ∧ e'.Settled platform t (limit + 1) := by
  obtain ⟨e', he', hsame, hsettled⟩ := h.sanitizeEvent
  refine ⟨e', ?_, hsame, hsettled⟩
  rw [TraceEvent.modelValidate, validate, he']
  simp [hsettled.agentId, hsettled.tenantId]

/-- A settled event is persisted, and is the same event. -/
theorem TraceEvent.Settled.forPersistence (h : e.Settled platform t (limit + 1)) :
    ∃ e', TraceEvent.forPersistence platform t (limit + 1) e = .ok e' ∧
      SameEvent platform t (limit + 1) e e' ∧ e'.Settled platform t (limit + 1) := by
  obtain ⟨d, hd, hsame, hsettled⟩ := h.sanitizeEvent
  obtain ⟨e', he', hsame', hsettled'⟩ := hsettled.modelValidate
  refine ⟨e', ?_, hsame.trans hsame', hsettled'⟩
  rw [TraceEvent.forPersistence, TraceEvent.modelDump, hd]
  exact he'

/-- What was persisted is settled. -/
theorem settled_of_forPersistence (h : TraceEvent.forPersistence platform t limit e = .ok e') :
    e'.Settled platform t limit := by
  obtain ⟨d, -, h⟩ := except_bind_eq_ok.mp h
  exact settled_of_validate h

end Passes

end PersonalAssistant
