import Mathlib.Data.List.Infix
import PersonalAssistant.Dto.Events
import PersonalAssistant.Lib.Dict
import PersonalAssistant.Privacy.Patterns

/-!
# The trace redactor

`redact_trace_mapping` over a graph of host objects. Objects are references with an identity, so a
container can be shared or contain itself. The depth limit is counted down; `limit` is the interpreter's
recursion limit for calls, which only the nesting of lists under a category key can reach. `none` is an
error that is raised: the recursion limit is reached, or a value that is to be written as a text cannot be.
-/
namespace PersonalAssistant

open Lib Privacy

variable {platform : Platform}

/-! ## Object graphs -/

/-- What one object is, one level deep. A key that is no text is `none`. -/
inductive View (Ref : Type) where
  | none
  | bool (b : Bool)
  /-- An integer or a finite float. -/
  | num (n : JsonNumber)
  /-- A float that is not finite. -/
  | nonfinite
  | str (s : String)
  | bytes (content : List UInt8)
  | list (items : List Ref)
  | tuple (items : List Ref)
  | mapping (items : List (Option String × Ref))

structure ObjectGraph (Ref : Type) where
  view : Ref → View Ref
  /-- `str(value)` of what is neither a constant, a number nor a text, however deep it nests; `none` where
  it raises, as for an integer of too many digits inside. -/
  repr : Ref → Option String

/-- The number is an integer, and no float. -/
def isInteger (n : JsonNumber) : Bool :=
  n.text.toList.all fun c => !(c == '.' || c == 'e' || c == 'E')

/-- The number can be written as a text, as every float can. -/
def printsNumber (n : JsonNumber) : Bool :=
  !isInteger n || (n.text.toList.filter Char.isDigit).length ≤ maxStrDigits

namespace View

variable {Ref : Type}

/-- The items of a list or a tuple. -/
def items? : View Ref → Option (List Ref)
  | list items => some items
  | tuple items => some items
  | _ => Option.none

/-- What `repr` goes through inside a container. -/
def parts? : View Ref → Option (List Ref)
  | mapping items => some (items.map Prod.snd)
  | v => v.items?

def isMapping : View Ref → Bool
  | mapping _ => true
  | _ => false

/-- `len(value)` of a container. -/
def length? : View Ref → Option Nat
  | list items => some items.length
  | tuple items => some items.length
  | mapping items => some items.length
  | _ => Option.none

end View

namespace ObjectGraph

variable {Ref : Type} (g : ObjectGraph Ref)

/-- `str(value)`, however deep it nests. -/
def text (r : Ref) : Option String :=
  match g.view r with
  | .none => some "None"
  | .bool b => some (if b then "True" else "False")
  | .num n => if printsNumber n then some n.text else none
  | .str s => some s
  | _ => g.repr r

variable [DecidableEq Ref]

/-- `repr` goes at most `left` containers deep, and not again into one that it is inside of. -/
def nests : Nat → List Ref → Ref → Bool
  | 0, _, r => (g.view r).parts?.isNone
  | left + 1, inside, r =>
    match (g.view r).parts? with
    | none => true
    | some parts => decide (r ∈ inside) || parts.all (nests left (r :: inside))

/-- `str(value)`. -/
def str (reprLimit : Nat) (r : Ref) : Option String := if g.nests reprLimit [] r then g.text r else none

variable {g} {r : Ref}

/-- What is no container has a text at every limit. -/
theorem nests_of_leaf (h : (g.view r).parts? = none) (n : Nat) (inside : List Ref) :
    g.nests n inside r = true := by
  cases n <;> simp [nests, h]

theorem str_of_leaf (h : (g.view r).parts? = none) (n : Nat) : g.str n r = g.text r := by
  rw [str, if_pos (nests_of_leaf h n [])]

end ObjectGraph

theorem isDigit_toDigits (n : Nat) : ∀ c ∈ (String.ofList (Nat.toDigits 10 n)).toList, c.isDigit := by
  intro c hc
  rw [String.toList_ofList] at hc
  exact Nat.isDigit_of_mem_toDigits (by decide) (by decide) hc

/-- The number a count is written as. -/
def countNumber (n : Nat) : JsonNumber where
  text := String.ofList (Nat.toDigits 10 n)
  nonempty h := by
    have := congrArg String.toList h
    rw [String.toList_ofList] at this
    exact Nat.toDigits_ne_nil this
  chars c hc := .inl (isDigit_toDigits n c hc)

namespace Privacy

/-! ## Key classes -/

def identifierKeys : List String :=
  ["actorid", "agentid", "approvalid", "calendareventid", "causationid", "chatid", "conversationid",
    "correlationid", "eventid", "fileid", "id", "idempotencykey", "jobid", "messageid", "parenteventid",
    "principalid", "providermessageid", "promptid", "reminderid", "replyid", "requestid", "runid",
    "sourceeventid", "tenantid", "traceid", "updateid", "userid", "workflowid"]

def externalIdentifierKeys : List String :=
  ["actorid", "chatid", "conversationid", "messageid", "principalid", "providermessageid",
    "sourceeventid", "updateid", "userid"]

def hashKeys : List String :=
  ["digest", "fingerprint", "hash", "payloadfingerprint", "requesthash", "sha256"]

def metricKeys : List String :=
  ["accepted", "confidence", "contextutilization", "count", "durationms", "end", "identityversion",
    "inputtokens", "latencyms", "limit", "matched", "mediafilesize", "outputtokens", "sizebytes", "start",
    "temperature", "textlength", "threshold", "tokencount", "truncatedcount"]

def categoryKeys : List String :=
  ["audioformat", "category", "channel", "code", "component", "contenttype", "errortype", "extension",
    "field", "format", "kind", "label", "language", "mediakind", "mediamimetype", "model", "name",
    "operation", "promptversion", "provider", "retryable", "schema", "severity", "source", "stage",
    "status", "step", "telegramfileextension", "tier", "timezone", "type", "validation", "version",
    "workflow", "workflowtype"]

def containerKeys : List String :=
  ["categories", "context", "details", "errors", "findings", "items", "loc", "metadata", "result",
    "results"]

def sensitiveKeyParts : List String :=
  ["apikey", "authorization", "body", "content", "cookie", "credential", "document", "excerpt", "input",
    "message", "password", "passwd", "prompt", "query", "reason", "secret", "session", "text", "token",
    "transcript", "url", "uri"]

def binaryKeyParts : List String :=
  ["attachment", "audio", "binary", "blob", "bytes", "data", "file", "image", "media", "payload"]

def endsWithAny (suffixes : List String) (key : String) : Bool :=
  suffixes.any fun suffix => decide (suffix.toList <:+ key.toList)

def containsAny (parts : List String) (key : String) : Bool :=
  parts.any fun part => decide (part.toList <:+: key.toList)

/-- `_canonical_key`, of a key in ASCII. -/
def canonicalKey (key : String) : String :=
  String.ofList ((key.toList.map Char.toLower).filter fun c => c.isLower || c.isDigit)

/-- `_is_metric_key`. -/
def isMetricKey (key : String) : Bool :=
  endsWithAny ["bytes", "count", "durationms", "length", "latencyms", "size", "tokens"] key

/-- `_is_sensitive_key`. -/
def isSensitiveKey (key : String) : Bool := containsAny sensitiveKeyParts key

/-- The classes of a key, in the order in which they are tested. -/
inductive KeyClass where
  | metric
  | identifier (external : Bool)
  | hash
  | category
  | container
  | sensitive
  | binary
  | unknown
deriving DecidableEq, Repr

/-- The class of a canonical key. -/
def classify (canonical : String) : KeyClass :=
  if metricKeys.contains canonical || isMetricKey canonical then .metric
  else if identifierKeys.contains canonical then .identifier (externalIdentifierKeys.contains canonical)
  else if hashKeys.contains canonical || endsWithAny ["hash", "fingerprint", "sha256"] canonical then .hash
  else if categoryKeys.contains canonical then .category
  else if containerKeys.contains canonical then .container
  else if isSensitiveKey canonical then .sensitive
  else if containsAny binaryKeyParts canonical then .binary
  else .unknown

/-- A stripped key that may appear in the output. -/
def acceptedKey (key : String) : Bool := key ≠ "" && key.length ≤ maxKeyLength && isSafeKey key

/-- The class of the key of an item, if the item is looked at at all. -/
def itemClass (key : Option String) : KeyClass :=
  match key with
  | none => .unknown
  | some raw => if acceptedKey (strip raw) then classify (canonicalKey (strip raw)) else .unknown

/-! ## Values -/

section Redactor

variable {Ref : Type} [DecidableEq Ref] (platform : Platform) (t : PrivacyTables) (g : ObjectGraph Ref)

/-- `_sanitize_metric`. -/
def sanitizeMetric : View Ref → Option Json
  | .bool b => some (.bool b)
  | .num n => some (.num n)
  | _ => none

/-- One identifier. -/
def sanitizeIdentifier (forceOpaque : Bool) (r : Ref) : Option Json := do
  let value ← g.str t.reprLimit r
  return .str (if forceOpaque then opaqueTraceIdentifier platform value
    else safeTraceRunId platform t.unicode value)

/-- `_sanitize_identifier_value`. -/
def sanitizeIdentifierValue (forceOpaque : Bool) (r : Ref) : Option Json :=
  match (g.view r).items? with
  | some items => ((items.take maxItems).mapM (sanitizeIdentifier platform t g forceOpaque)).map .arr
  | none => sanitizeIdentifier platform t g forceOpaque r

/-- `_sanitize_hash`. -/
def sanitizeHash (r : Ref) : Option Json := do
  let text := strip (← g.str t.reprLimit r)
  return .str (if matchesSafeHash text then text else hashForm platform text)

/-- `safe_category` of an object. -/
def categoryOf (r : Ref) : Option Json :=
  match g.view r with
  | .none => some .null
  | _ => do
    let value ← g.str t.reprLimit r
    return .str (safeCategory t.unicode value)

/-- `_sanitize_category_value`. -/
def sanitizeCategoryValue : Nat → Ref → Option Json
  | 0, _ => none
  | limit + 1, r =>
    match g.view r with
    | .bool b => some (.bool b)
    | .list items => ((items.take maxItems).mapM (sanitizeCategoryValue limit)).map .arr
    | .tuple items => ((items.take maxItems).mapM (sanitizeCategoryValue limit)).map .arr
    | _ => categoryOf t g r

/-- `binary_metadata`. -/
def binaryMetadata (content : List UInt8) : Json :=
  .obj [("kind", .str "binary"), ("size_bytes", .num (countNumber content.length)),
    ("sha256", .str (t.sha256Bytes content).text)]

/-- `_store_redacted`. -/
def storeRedacted (output : Members) (key : String) (r : Ref) : Members :=
  match g.view r with
  | .bytes content => Dict.insertEntry key (binaryMetadata t content) output
  | .str s =>
    if s = redacted ∨ s = redactedUrl then Dict.insertEntry key (.str s) output
    else
      Dict.insertEntry (key ++ "_sha256") (.str (platform.sha256 s).text)
        (Dict.insertEntry (key ++ "_length") (.num (countNumber s.length))
          (Dict.insertEntry key (.str (if hasUrl t.unicode s then redactedUrl else redacted)) output))
  | v =>
    match v.length? with
    | some n => Dict.insertEntry (key ++ "_count") (.num (countNumber n))
        (Dict.insertEntry key (.str redacted) output)
    | none => Dict.insertEntry key (.str redacted) output

/-- `isinstance(value, int)`, booleans included. -/
def isInt : Json → Bool
  | .bool _ => true
  | .num n => isInteger n
  | _ => false

def isText (value : String) : Json → Bool
  | .str s => s == value
  | _ => false

def isHashText : Json → Bool
  | .str s => matchesSafeHash s
  | _ => false

/-- `_is_binary_metadata`. -/
def isBinaryMetadata : Json → Bool
  | .obj ms => (ms.lookup "kind").any (isText "binary") && (ms.lookup "size_bytes").any isInt &&
      (ms.lookup "sha256").any isHashText
  | _ => false

/-- How the objects inside a container are sanitized, one level further down. -/
structure Nested (Ref : Type) where
  mapping : Ref → Option Json
  list : String → Ref → Option Json

variable {platform t g}

/-- `_sanitize_container`, one level further down. -/
def Nested.container (g : ObjectGraph Ref) (nested : Nested Ref) (key : String) (r : Ref) : Option Json :=
  if (g.view r).isMapping then nested.mapping r else nested.list key r

variable (platform t g) (limit : Nat)

/-- The class-specific part of the loop of `_sanitize_mapping`. -/
def sanitizeField (nested : Nested Ref) (output : Members) (key : String) (r : Ref) : Option Members :=
  match classify (canonicalKey key) with
  | .metric =>
    match sanitizeMetric (g.view r) with
    | some metric => some (Dict.insertEntry key metric output)
    | none => some (storeRedacted platform t g output key r)
  | .identifier external => do
    return Dict.insertEntry key (← sanitizeIdentifierValue platform t g external r) output
  | .hash => do return Dict.insertEntry key (← sanitizeHash platform t g r) output
  | .category => do return Dict.insertEntry key (← sanitizeCategoryValue t g limit r) output
  | .container => do return Dict.insertEntry key (← nested.container g (canonicalKey key) r) output
  | .sensitive => some (storeRedacted platform t g output key r)
  | .binary =>
    if (g.view r).isMapping then do
      let metadata ← nested.mapping r
      return if isBinaryMetadata metadata then Dict.insertEntry key metadata output
        else storeRedacted platform t g output key r
    else some (storeRedacted platform t g output key r)
  | .unknown => some output

/-- One round of the loop of `_sanitize_mapping`. -/
def sanitizeItem (nested : Nested Ref) (output : Members) (item : Option String × Ref) : Option Members :=
  match item.1 with
  | none => some output
  | some raw =>
    let key := strip raw
    if acceptedKey key then sanitizeField platform t g limit nested output key item.2 else some output

/-- One round of the loop of `_sanitize_container`. -/
def sanitizeListItem (nested : Nested Ref) (key : String) (r : Ref) : Option Json :=
  if (g.view r).isMapping then nested.mapping r
  else if (g.view r).items?.isSome then nested.list key r
  else if key = "loc" then sanitizeIdentifierValue platform t g false r
  else if key = "categories" then sanitizeCategoryValue t g limit r
  else match g.view r with
  | .bytes content => some (binaryMetadata t content)
  | _ => some (.str redacted)

/-- The entry that tells how many items a mapping had beyond the limit. -/
def truncate (count : Nat) (output : Members) : Members :=
  if maxItems < count then Dict.insertEntry "truncated_count" (.num (countNumber (count - maxItems))) output
  else output

/-- The item that tells how many items a list had beyond the limit. -/
def truncationItem (count : Nat) : List Json :=
  if maxItems < count then [.obj [("truncated_count", .num (countNumber (count - maxItems)))]] else []

/-- The body of `_sanitize_mapping`. -/
def mappingBody (nested : Nested Ref) (items : List (Option String × Ref)) : Option Json := do
  let output ← (items.take maxItems).foldlM (sanitizeItem platform t g limit nested) []
  return .obj (truncate items.length output)

/-- The body of `_sanitize_container` for a list. -/
def listBody (nested : Nested Ref) (key : String) (items : List Ref) : Option Json := do
  let output ← (items.take maxItems).mapM (sanitizeListItem platform t g limit nested key)
  return .arr (output ++ truncationItem items.length)

mutual

/-- `_sanitize_mapping`, with the levels left. -/
def sanitizeMapping : Nat → List Ref → Ref → Option Json
  | 0, _, _ => some (.str redacted)
  | left + 1, seen, r =>
    match g.view r with
    | .mapping items =>
      if r ∈ seen then some (.str redacted)
      else mappingBody platform t g limit
        ⟨sanitizeMapping left (r :: seen), fun key => sanitizeList key left (r :: seen)⟩ items
    | _ => some (.str redacted)

/-- `_sanitize_container` of what is no mapping, with the levels left. -/
def sanitizeList (key : String) : Nat → List Ref → Ref → Option Json
  | 0, _, _ => some (.str redacted)
  | left + 1, seen, r =>
    match (g.view r).items? with
    | some items =>
      if r ∈ seen then some (.str redacted)
      else listBody platform t g limit
        ⟨sanitizeMapping left (r :: seen), fun key => sanitizeList key left (r :: seen)⟩ key items
    | none => some (.str redacted)

end

/-- What lies inside a container with `left` levels below it. -/
def below (left : Nat) (seen : List Ref) : Nested Ref :=
  ⟨sanitizeMapping platform t g limit left seen,
    fun key => sanitizeList platform t g limit key left seen⟩

/-- `redact_trace_mapping`. -/
def redactTraceMapping (r : Ref) : Option Json :=
  if (g.view r).isMapping then sanitizeMapping platform t g limit (maxDepth + 1) [] r else some (.obj [])

variable {platform t g limit} {left : Nat} {seen : List Ref} {r : Ref}

theorem sanitizeMapping_of_view {items : List (Option String × Ref)} (hview : g.view r = .mapping items)
    (hseen : r ∉ seen) : sanitizeMapping platform t g limit (left + 1) seen r =
      mappingBody platform t g limit (below platform t g limit left (r :: seen)) items := by
  unfold sanitizeMapping
  rw [hview]
  exact if_neg hseen

theorem sanitizeList_of_items {key : String} {items : List Ref} (hitems : (g.view r).items? = some items)
    (hseen : r ∉ seen) : sanitizeList platform t g limit key (left + 1) seen r =
      listBody platform t g limit (below platform t g limit left (r :: seen)) key items := by
  unfold sanitizeList
  rw [hitems]
  exact if_neg hseen

theorem redactTraceMapping_of_view {items : List (Option String × Ref)}
    (hview : g.view r = .mapping items) : redactTraceMapping platform t g limit r =
      mappingBody platform t g limit (below platform t g limit maxDepth [r]) items := by
  rw [redactTraceMapping, hview]
  exact sanitizeMapping_of_view hview (List.not_mem_nil)

end Redactor

end Privacy

end PersonalAssistant
