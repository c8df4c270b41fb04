import PersonalAssistant.Privacy.Boundary
import PersonalAssistant.Privacy.Documents
import PersonalAssistant.Reminders.Models
import Mathlib.Data.List.Dedup
import Mathlib.Data.List.Perm.Subperm
import Mathlib.Data.List.Sort
import Mathlib.Data.Prod.Lex

/-!
# Guardrail telemetry

The `validation` payload of a `guardrail.checked` event: who builds it, what the trace boundary leaves of
it, and what the dashboard reads from it.
-/
namespace PersonalAssistant

open Lib Privacy

variable {platform : Platform} {t : PrivacyTables}

namespace GuardrailCategory

def value : GuardrailCategory → String
  | promptInjection => "prompt_injection"
  | pii => "pii"
  | contentPolicy => "content_policy"

end GuardrailCategory

namespace GuardrailSeverity

def value : GuardrailSeverity → String
  | low => "low"
  | medium => "medium"
  | high => "high"

end GuardrailSeverity

namespace GuardrailTelemetry

/-- The labels of the rule tables. -/
def ruleLabels : List String :=
  ["ignore_instructions", "reveal_system_prompt", "jailbreak", "tool_exfiltration", "email", "phone",
    "ssn", "credit_card", "cp_in_001_violent_threat", "cp_in_002_secret_sharing",
    "cp_out_001_credential_material", "cp_out_002_exfiltration_instruction",
    "cp_out_003_hidden_instruction_leak", "cp_out_004_destructive_action"]

/-- A finding, as far as telemetry reads it. -/
structure GuardrailFinding where
  category : GuardrailCategory
  severity : GuardrailSeverity
  label : String
  label_mem : label ∈ ruleLabels

variable (findings : List GuardrailFinding)

/-- `result.blocked`. -/
def blocked : Bool := findings.any fun f => f.severity = .high

/-- `derive_guardrail_action`. -/
def deriveGuardrailAction : String :=
  if blocked findings then "blocked" else if findings ≠ [] then "flagged" else "allowed"

def guardrailActions : List String := ["allowed", "flagged", "blocked"]

/-- The key of the sort. -/
def sortKey (f : GuardrailFinding) : String ×ₗ String ×ₗ String :=
  toLex (f.category.value, toLex (f.severity.value, f.label))

def entry (f : GuardrailFinding) : Json :=
  .obj [("category", .str f.category.value), ("severity", .str f.severity.value), ("label", .str f.label)]

def sortedFindings : List GuardrailFinding :=
  findings.insertionSort fun a b => sortKey a ≤ sortKey b

def sortedCategories : List String :=
  ((findings.map fun f => f.category.value).dedup).insertionSort (· ≤ ·)

def guardrailPayload (action : String) : Members :=
  [("status", .str action), ("categories", .arr ((sortedCategories findings).map .str)),
    ("findings_count", .num (countNumber findings.length)),
    ("findings", .arr ((sortedFindings findings).map entry))]

/-- `build_guardrail_validation`. -/
def buildGuardrailValidation (action : String) : Except PyError Members :=
  if action ∈ guardrailActions then .ok (guardrailPayload findings action)
  else .error (.valueError "guardrail action must be allowed, flagged, or blocked")

/-- One round of the loop of `_guardrail_event_metrics`. -/
def countFinding (blockedBy : List (String × Bool)) : Json → Option (List (String × Bool))
  | .obj finding =>
    match finding.lookup "category" with
    | some (.str category) =>
      if category = "" then none
      else
        let blocking := (finding.lookup "severity").any (isText "high")
        some (Dict.insertEntry category ((blockedBy.lookup category).getD false || blocking) blockedBy)
    | _ => none
  | _ => none

/-- `_guardrail_event_metrics`. -/
def guardrailEventMetrics (validation : Members) : Option (String × List (String × Bool)) :=
  match validation.lookup "status" with
  | some (.str action) =>
    if action ∈ guardrailActions then
      match validation.lookup "findings" with
      | some (.arr findings) => do return (action, ← findings.foldlM countFinding [])
      | _ => none
    else none
  | _ => none

/-! ## Through the boundary -/

section Boundary

variable {limit : Nat} {findings}

theorem action_mem : deriveGuardrailAction findings ∈ guardrailActions := by
  unfold deriveGuardrailAction
  split_ifs <;> decide

theorem keptCategory_of_mem (words : List String) (h : words.all fun s =>
      (strip s).toList.all (fun c => c.toNat < 128) && safeCategory .ascii s == s) {s : String}
    (hs : s ∈ words) (u : Unicode) : KeptCategory u s := by
  have hall := List.all_eq_true.mp h s hs
  simp only [Bool.and_eq_true, List.all_eq_true, decide_eq_true_eq, beq_iff_eq] at hall
  exact keptCategory_of_ascii hall.1 hall.2

theorem kept_category (c : GuardrailCategory) (u : Unicode) : KeptCategory u c.value :=
  keptCategory_of_mem ["prompt_injection", "pii", "content_policy"] (by decide +kernel)
    (by cases c <;> decide) u

theorem kept_severity (s : GuardrailSeverity) (u : Unicode) : KeptCategory u s.value :=
  keptCategory_of_mem ["low", "medium", "high"] (by decide +kernel) (by cases s <;> decide) u

theorem kept_label (f : GuardrailFinding) (u : Unicode) : KeptCategory u f.label :=
  keptCategory_of_mem ruleLabels (by decide +kernel) f.label_mem u

/-- A finding passes the boundary unchanged. -/
theorem sanitizeMapping_entry (left : Nat) (seen : List Json) (f : GuardrailFinding)
    (hseen : entry f ∉ seen) :
    sanitizeMapping platform t (documents t) (limit + 1) (left + 1) seen (entry f) = some (entry f) := by
  have hcategory : PlainKey "category" .category := by decide +kernel
  have hseverity : PlainKey "severity" .category := by decide +kernel
  have hlabel : PlainKey "label" .category := by decide +kernel
  have hview : (documents t).view (entry f) = .mapping [(some "category", .str f.category.value),
      (some "severity", .str f.severity.value), (some "label", .str f.label)] := rfl
  rw [sanitizeMapping_of_view hview hseen]
  simp [entry, mappingBody, truncate, maxItems, List.foldlM,
    sanitizeItem_category hcategory (kept_category f.category t.unicode),
    sanitizeItem_category hseverity (kept_severity f.severity t.unicode),
    sanitizeItem_category hlabel (kept_label f t.unicode), Dict.insertEntry]

/-- The findings pass the boundary up to the limit on items. -/
theorem sanitizeList_findings (left : Nat) (seen : List Json) (fs : List GuardrailFinding)
    (hlist : Json.arr (fs.map entry) ∉ seen) (hseen : ∀ f, entry f ∉ seen) :
    sanitizeList platform t (documents t) (limit + 1) "findings" (left + 2) seen (.arr (fs.map entry)) =
      some (.arr ((fs.map entry).take maxItems ++ truncationItem fs.length)) := by
  have hitem : ((fs.map entry).take maxItems).mapM (sanitizeListItem platform t (documents t) (limit + 1)
      (below platform t (documents t) (limit + 1) (left + 1) (.arr (fs.map entry) :: seen)) "findings") =
        some ((fs.map entry).take maxItems) := by
    rw [mapM_eq_some_iff, List.forall₂_same]
    intro j hj
    obtain ⟨f, -, rfl⟩ := List.mem_map.mp (List.mem_of_mem_take hj)
    have hentry : entry f ∉ .arr (fs.map entry) :: seen := by
      rw [List.mem_cons, not_or]
      exact ⟨by simp [entry], hseen f⟩
    have hmapping : ((documents t).view (entry f)).isMapping = true := rfl
    rw [sanitizeListItem, if_pos hmapping]
    exact sanitizeMapping_entry left _ f hentry
  have hitems : ((documents t).view (.arr (fs.map entry))).items? = some (fs.map entry) := rfl
  rw [sanitizeList_of_items hitems hlist, listBody, hitem, List.length_map]
  rfl

/-- The categories pass the boundary: there are at most three. -/
theorem sanitizeList_categories (left : Nat) (seen : List Json) {words : List String}
    (hlist : Json.arr (words.map .str) ∉ seen) (hwords : ∀ s ∈ words, KeptCategory t.unicode s)
    (hlength : words.length ≤ maxItems) :
    sanitizeList platform t (documents t) (limit + 1) "categories" (left + 1) seen (.arr (words.map .str)) =
      some (.arr (words.map .str)) := by
  have htake : (words.map Json.str).take maxItems = words.map .str := by
    rw [List.take_of_length_le]
    simpa using hlength
  have htruncate : truncationItem words.length = [] := by
    unfold truncationItem
    rw [if_neg (by omega)]
  have hitem : ∀ nested, (words.map Json.str).mapM (sanitizeListItem platform t (documents t) (limit + 1)
      nested "categories") = some (words.map .str) := by
    intro nested
    rw [mapM_eq_some_iff, List.forall₂_same]
    intro j hj
    obtain ⟨s, hs, rfl⟩ := List.mem_map.mp hj
    have hkept := hwords s hs
    unfold KeptCategory at hkept
    simp [sanitizeListItem, documentView, View.isMapping, View.items?, sanitizeCategoryValue, categoryOf,
      hkept]
  have hitems : ((documents t).view (.arr (words.map .str))).items? = some (words.map .str) := rfl
  rw [sanitizeList_of_items hitems hlist, listBody, htake, hitem, List.length_map, htruncate]
  simp

theorem length_sortedCategories : (sortedCategories findings).length ≤ 3 := by
  have hsub : sortedCategories findings ⊆ ["prompt_injection", "pii", "content_policy"] := by
    intro s hs
    rw [sortedCategories, List.mem_insertionSort, List.mem_dedup, List.mem_map] at hs
    obtain ⟨f, -, rfl⟩ := hs
    cases f.category <;> decide
  have hnodup : (sortedCategories findings).Nodup :=
    (List.perm_insertionSort _ _).nodup_iff.mpr (List.nodup_dedup _)
  exact (List.subperm_of_subset hnodup hsub).length_le

/-- What the boundary leaves of a payload: everything but findings beyond the limit. -/
theorem redact_guardrailPayload (action : String) (haction : action ∈ guardrailActions) :
    redactTraceMapping platform t (documents t) (limit + 1) (.obj (guardrailPayload findings action)) =
      some (.obj [("status", .str action), ("categories", .arr ((sortedCategories findings).map .str)),
        ("findings_count", .num (countNumber findings.length)),
        ("findings", .arr (((sortedFindings findings).map entry).take maxItems ++
          truncationItem (sortedFindings findings).length))]) := by
  have hstatus : PlainKey "status" .category := by decide +kernel
  have hcategories : PlainKey "categories" .container := by decide +kernel
  have hcount : PlainKey "findings_count" .metric := by decide +kernel
  have hfindings : PlainKey "findings" .container := by decide +kernel
  have hkept := keptCategory_of_mem guardrailActions (by decide +kernel) haction t.unicode
  generalize hroot : Json.obj (guardrailPayload findings action) = root
  have hnested : ∀ output, sanitizeItem platform t (documents t) (limit + 1)
      (below platform t (documents t) (limit + 1) maxDepth [root]) output
        (some "categories", .arr ((sortedCategories findings).map .str)) =
      some (Dict.insertEntry "categories" (.arr ((sortedCategories findings).map .str)) output) := by
    intro output
    refine sanitizeItem_container hcategories ?_
    have hcanonical : canonicalKey "categories" = "categories" := by decide +kernel
    rw [hcanonical]
    refine sanitizeList_categories 7 [root] (by simp [← hroot]) ?_
      (length_sortedCategories.trans (by decide))
    intro s hs
    rw [sortedCategories, List.mem_insertionSort, List.mem_dedup, List.mem_map] at hs
    obtain ⟨f, -, rfl⟩ := hs
    exact kept_category f.category t.unicode
  have hnested' : ∀ output, sanitizeItem platform t (documents t) (limit + 1)
      (below platform t (documents t) (limit + 1) maxDepth [root]) output
        (some "findings", .arr ((sortedFindings findings).map entry)) =
      some (Dict.insertEntry "findings" (.arr (((sortedFindings findings).map entry).take maxItems ++
        truncationItem (sortedFindings findings).length)) output) := by
    intro output
    refine sanitizeItem_container hfindings ?_
    have hcanonical : canonicalKey "findings" = "findings" := by decide +kernel
    rw [hcanonical]
    exact sanitizeList_findings 6 [root] (sortedFindings findings) (by simp [← hroot])
      (by simp [← hroot, entry, guardrailPayload])
  have hview : (documents t).view root = .mapping [(some "status", .str action),
      (some "categories", .arr ((sortedCategories findings).map .str)),
      (some "findings_count", .num (countNumber findings.length)),
      (some "findings", .arr ((sortedFindings findings).map entry))] := by
    rw [← hroot]
    rfl
  rw [redactTraceMapping_of_view hview]
  simp [mappingBody, maxItems, List.foldlM, sanitizeItem_category hstatus hkept, hnested,
    sanitizeItem_metric hcount, hnested', truncate, Dict.insertEntry]

end Boundary

/-! ## The dashboard -/

/-- Whether a category has a finding, and whether one of them is blocking. -/
def hitOf (key : String) : Option Bool :=
  if findings.any fun f => f.category.value = key then
    some (findings.any fun f => decide (f.category.value = key) && decide (f.severity = .high))
  else none

section Dashboard

variable {limit : Nat} {findings} {blockedBy : List (String × Bool)}

theorem countFinding_entry (f : GuardrailFinding) : countFinding blockedBy (entry f) =
    some (Dict.insertEntry f.category.value
      ((blockedBy.lookup f.category.value).getD false || decide (f.severity = .high)) blockedBy) := by
  have hne : f.category.value ≠ "" := by cases f.category <;> decide
  have hhigh : isText "high" (.str f.severity.value) = decide (f.severity = .high) := by
    cases f.severity <;> decide
  simp [countFinding, entry, List.lookup_cons, hne, hhigh]

/-- The loop over findings joins the blocking flags of each category. -/
theorem foldlM_countFinding (fs : List GuardrailFinding) (blockedBy : List (String × Bool)) :
    ∃ hits, (fs.map entry).foldlM countFinding blockedBy = some hits ∧ ∀ key, hits.lookup key =
      if fs.any fun f => f.category.value = key then
        some ((blockedBy.lookup key).getD false ||
          fs.any fun f => decide (f.category.value = key) && decide (f.severity = .high))
      else blockedBy.lookup key := by
  induction fs generalizing blockedBy with
  | nil => exact ⟨blockedBy, rfl, by simp⟩
  | cons f fs ih =>
    obtain ⟨hits, hhits, hlookup⟩ := ih (Dict.insertEntry f.category.value
      ((blockedBy.lookup f.category.value).getD false || decide (f.severity = .high)) blockedBy)
    refine ⟨hits, by rw [List.map_cons, List.foldlM_cons, countFinding_entry]; exact hhits, ?_⟩
    intro key
    rw [hlookup key, Dict.lookup_insertEntry]
    by_cases hkey : key = f.category.value
    · subst hkey
      by_cases hrest : fs.any fun g => g.category.value = f.category.value
      · simp [hrest, Bool.or_assoc]
      · have hblocking : (fs.any fun g => decide (g.category.value = f.category.value) &&
            decide (g.severity = .high)) = false := by
          rw [List.any_eq_false]
          intro g hg
          have hne := List.any_eq_false.mp (Bool.eq_false_iff.mpr hrest) g hg
          simp_all
        simp [hrest, hblocking]
    · have hkey' : ¬ f.category.value = key := fun h => hkey h.symm
      simp [hkey, hkey']

theorem hitOf_perm {fs : List GuardrailFinding} (h : fs.Perm findings) (key : String) :
    hitOf fs key = hitOf findings key := by
  unfold hitOf
  rw [h.any_eq, h.any_eq]

/-- A payload with its findings intact is read as it was meant. -/
theorem guardrailEventMetrics_payload (action : String) (haction : action ∈ guardrailActions) :
    ∃ hits, guardrailEventMetrics (guardrailPayload findings action) = some (action, hits) ∧
      ∀ key, hits.lookup key = hitOf findings key := by
  obtain ⟨hits, hhits, hlookup⟩ := foldlM_countFinding (sortedFindings findings) []
  refine ⟨hits, by simp [guardrailEventMetrics, guardrailPayload, List.lookup_cons, haction, hhits], ?_⟩
  intro key
  rw [hlookup key, ← hitOf_perm (List.perm_insertionSort (fun a b => sortKey a ≤ sortKey b) findings) key]
  simp [hitOf, sortedFindings]

/-- A truncated list of findings is read as no telemetry at all. -/
theorem guardrailEventMetrics_truncated (action : String) (findings : List Json) (n : JsonNumber)
    (ms : Members) (hstatus : ms.lookup "status" = some (.str action))
    (hfindings : ms.lookup "findings" = some (.arr (findings ++ [.obj [("truncated_count", .num n)]]))) :
    guardrailEventMetrics ms = none := by
  have hfold : (findings ++ [Json.obj [("truncated_count", .num n)]]).foldlM countFinding [] = none := by
    rw [List.foldlM_append]
    cases findings.foldlM countFinding [] <;> rfl
  simp [guardrailEventMetrics, hstatus, hfindings, hfold]

/-- The telemetry of a scan survives the boundary and is read as it was meant. -/
def Survives (platform : Platform) (t : PrivacyTables) (limit : Nat) (findings : List GuardrailFinding) :
    Prop :=
  ∃ payload out hits, buildGuardrailValidation findings (deriveGuardrailAction findings) = .ok payload ∧
    redactTraceMapping platform t (documents t) limit (.obj payload) = some (.obj out) ∧
    (∀ key ∈ ["status", "categories", "findings_count", "findings"], out.lookup key = payload.lookup key) ∧
    guardrailEventMetrics out = some (deriveGuardrailAction findings, hits) ∧
    ∀ key, hits.lookup key = hitOf findings key

theorem buildGuardrailValidation_derived :
    buildGuardrailValidation findings (deriveGuardrailAction findings) =
      .ok (guardrailPayload findings (deriveGuardrailAction findings)) :=
  if_pos action_mem

theorem length_sortedFindings : (sortedFindings findings).length = findings.length :=
  (List.perm_insertionSort _ findings).length_eq

theorem not_survives_of_truncated (h : maxItems < findings.length) :
    ¬ Survives platform t (limit + 1) findings := by
  rintro ⟨payload, out, hits, hpayload, hout, -, hmetrics, -⟩
  rw [buildGuardrailValidation_derived] at hpayload
  cases hpayload
  rw [redact_guardrailPayload _ action_mem, truncationItem, length_sortedFindings, if_pos h] at hout
  cases hout
  rw [guardrailEventMetrics_truncated _ _ _ _ rfl rfl] at hmetrics
  cases hmetrics

/-- The telemetry of a scan survives exactly when no finding is cut off. -/
theorem survives_iff (platform : Platform) (t : PrivacyTables) (limit : Nat)
    (findings : List GuardrailFinding) :
    Survives platform t (limit + 1) findings ↔ findings.length ≤ 100 := by
  constructor
  · intro h
    by_contra hlt
    exact not_survives_of_truncated (not_le.mp hlt) h
  · intro h
    have hlength : (sortedFindings findings).length ≤ maxItems := length_sortedFindings.trans_le h
    have htake : ((sortedFindings findings).map entry).take maxItems ++
        truncationItem (sortedFindings findings).length = (sortedFindings findings).map entry := by
      rw [truncationItem, if_neg (not_lt.mpr hlength), List.append_nil, List.take_of_length_le]
      simpa using hlength
    have hredact := @redact_guardrailPayload platform t findings limit _ (@action_mem findings)
    rw [htake] at hredact
    obtain ⟨hits, hmetrics, hlookup⟩ := @guardrailEventMetrics_payload findings _ (@action_mem findings)
    exact ⟨_, _, hits, buildGuardrailValidation_derived, hredact, fun _ _ => rfl, hmetrics, hlookup⟩

end Dashboard

/-! ## On a scan -/

def jailbreakFinding : GuardrailFinding := ⟨.promptInjection, .high, "jailbreak", by decide⟩

/-- A text that mentions a jailbreak 101 times has no telemetry. -/
theorem not_survives_hundred_and_one : ¬ ∀ findings,
    Survives (.ofTable []) PrivacyTables.sample 1 findings := by
  intro h
  exact not_survives_of_truncated (by rw [List.length_replicate]; decide)
    (h (List.replicate 101 jailbreakFinding))

end GuardrailTelemetry

end PersonalAssistant
