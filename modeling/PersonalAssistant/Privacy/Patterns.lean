import PersonalAssistant.Domain.Unicode
import PersonalAssistant.Domain.Platform

/-!
# Privacy patterns

The texts the trace boundary keeps, and the patterns that make a text sensitive. The patterns that match a
whole text are character classes with a bounded length; the others are searched for.
-/
namespace PersonalAssistant

open Lib

variable {platform : Platform}

/-- What the boundary takes from its surroundings besides the platform. -/
structure PrivacyTables where
  unicode : Unicode
  /-- `hashlib.sha256(content).hexdigest()`. -/
  sha256Bytes : List UInt8 → Digest
  /-- `str(value)` of a list or a dictionary, where it does not raise. -/
  repr : Json → Option String
  /-- How deep containers may nest inside a container that is written as a text. -/
  reprLimit : Nat

namespace Privacy

def redacted : String := "[REDACTED]"
def redactedUrl : String := "[REDACTED_URL]"

def maxDepth : Nat := 8
def maxItems : Nat := 100
def maxKeyLength : Nat := 80

/-! ## Whole texts -/

/-- A character of the first class and up to `n` of the second. -/
def isToken (first rest : Char → Bool) (n : Nat) (text : String) : Bool :=
  match text.toList with
  | [] => false
  | c :: cs => first c && cs.all rest && cs.length ≤ n

def isKeyChar (c : Char) : Bool := isAsciiWord c || c == '.' || c == '-'

def isIdentifierChar (c : Char) : Bool := isKeyChar c || c == ':' || c == '/' || c == '+' || c == '@'

/-- `_SAFE_KEY_RE`. -/
def isSafeKey (text : String) : Bool := isToken Char.isAlpha isKeyChar 79 text

/-- `_SAFE_IDENTIFIER_RE`. -/
def matchesSafeIdentifier (text : String) : Bool := isToken Char.isAlphanum isIdentifierChar 239 text

/-- `_SAFE_CATEGORY_RE`. -/
def matchesSafeCategory (text : String) : Bool := isToken Char.isAlphanum isIdentifierChar 159 text

/-- `[A-Fa-f0-9]`. -/
def isHexDigit (c : Char) : Bool := c.isDigit || ('a' ≤ c && c ≤ 'f') || ('A' ≤ c && c ≤ 'F')

def hashPrefix : List Char := ['s', 'h', 'a', '2', '5', '6', ':']

/-- The text behind `sha256:`, if it starts so. -/
def dropHashPrefix (cs : List Char) : List Char := if hashPrefix.isPrefixOf cs then cs.drop 7 else cs

/-- `_SAFE_HASH_RE`. -/
def matchesSafeHash (text : String) : Bool :=
  let digits := dropHashPrefix text.toList
  digits.all isHexDigit && 32 ≤ digits.length && digits.length ≤ 128

/-! ## Sensitive texts -/

section Expressions

open Regex

variable (u : Unicode)

def isTokenChar (c : Char) : Bool := c.isAlphanum || c == '_' || c == '-'

/-- `[^\s"'<>]`. -/
def isUrlChar (c : Char) : Bool := !(isSpace c || "\"'<>".toList.contains c)

/-- `_URL_RE`. -/
def urlRe : Regex :=
  concat [u.boundary, char foldsToLetter,
    star (char fun c => foldsToLetter c || c.isDigit || c == '+' || c == '.' || c == '-'),
    text "://", plus (char isUrlChar)]

/-- `_AUTHORITY_CREDENTIAL_RE`. -/
def authorityCredentialRe : Regex :=
  concat [notBehind Char.isAlphanum,
    between 1 64 (char fun c => isTokenChar c || c == '.' || c == '~'), lit ':',
    between 1 128 (char fun c => !(isSpace c || c == '@' || c == '/' || c == ':')), lit '@',
    plus (char fun c => c.isAlphanum || c == '.' || c == '-'),
    opt (seq (lit '/') (star (char fun c => !isSpace c)))]

/-- Two words with a blank, an underscore, a hyphen or nothing between them. -/
def compound (a b : String) : Regex :=
  concat [textFold a, opt (char fun c => c == ' ' || c == '_' || c == '-'), textFold b]

def equalsOrColon : Regex := char fun c => c == ':' || c == '='

/-- `_SECRET_ASSIGNMENT_RE`. -/
def secretAssignmentRe : Regex :=
  concat [u.boundary,
    choice [compound "api" "key", compound "access" "token", compound "refresh" "token",
      textFold "token", textFold "secret", textFold "password", textFold "passwd",
      textFold "authorization", textFold "credential", textFold "cookie", textFold "session"],
    u.boundary, star Unicode.space, equalsOrColon, star Unicode.space,
    plus (char fun c => !(isSpace c || c == ',' || c == ';'))]

def quote : Regex := opt (char fun c => c == '"' || c.toNat == 0x27)

/-- `_PRIVATE_TEXT_ASSIGNMENT_RE`. -/
def privateTextAssignmentRe : Regex :=
  concat [u.boundary,
    choice [textFold "message", textFold "text", textFold "transcript", textFold "prompt",
      textFold "body", textFold "content", textFold "audio"],
    u.boundary, star Unicode.space, quote, star Unicode.space, equalsOrColon, star Unicode.space, quote,
    plus (char fun c =>
      !(c == ';' || c == '\r' || c == '\n' || c.toNat == 0x7D || c == ']'))]

/-- `_BEARER_RE`. -/
def bearerRe : Regex :=
  concat [u.boundary, choice [textFold "bearer", textFold "basic"], plus Unicode.space,
    plus (char fun c => foldsToLetter c || c.isDigit || "._~+/=-".toList.contains c)]

/-- `_JWT_RE`. -/
def jwtRe : Regex :=
  concat [u.boundary, text "eyJ", plus (char isTokenChar), lit '.', plus (char isTokenChar), lit '.',
    plus (char isTokenChar), u.boundary]

/-- `_OPAQUE_SECRET_RE`. -/
def opaqueSecretRe : Regex :=
  concat [u.boundary,
    choice [textFold "sk", textFold "ghp", textFold "gho", textFold "ghu", textFold "ghs",
      textFold "github_pat"],
    opt (lit '-'), atLeast 18 (char fun c => foldsToLetter c || c.isDigit || c == '_' || c == '-'),
    u.boundary]

/-- `_TELEGRAM_TOKEN_RE`. -/
def telegramTokenRe : Regex :=
  concat [u.boundary, between 6 12 u.digit, lit ':', atLeast 20 (char isTokenChar), u.boundary]

def isSeparator (c : Char) : Bool := ":/_.@+-".toList.contains c

/-- `_TELEGRAM_TRACE_SOURCE_RE`. -/
def telegramTraceSourceRe : Regex :=
  concat [alt atStart (char isSeparator), textFold "telegram",
    choice [atEnd, seq (lit '\n') atEnd, char isSeparator]]

/-- The patterns of `_is_sensitive_string`. -/
def sensitiveRes : List Regex :=
  [urlRe u, authorityCredentialRe, secretAssignmentRe u, privateTextAssignmentRe u, bearerRe u, jwtRe u,
    opaqueSecretRe u, telegramTokenRe u]

end Expressions

/-- `_is_sensitive_string`. -/
def isSensitiveString (u : Unicode) (value : String) : Bool :=
  (sensitiveRes u).any (Regex.occursIn · value)

def hasUrl (u : Unicode) (value : String) : Bool := Regex.occursIn (urlRe u) value

def isTelegramSource (value : String) : Bool := Regex.occursIn telegramTraceSourceRe value

/-! ## Texts that are not sensitive -/

section NotSensitive

open Regex

variable {u : Unicode}

/-- An ASCII text. -/
def IsAscii (c : Char) : Prop := c.toNat < 128

theorem agree_boundary (u : Unicode) : Agree IsAscii u.boundary Unicode.ascii.boundary := by
  apply Agree.assert
  intro b a hb ha
  have hword : ∀ o : Option Char, (∀ c ∈ o, IsAscii c) → o.any u.isWord = o.any Unicode.ascii.isWord := by
    intro o ho
    cases o with
    | none => rfl
    | some c => exact u.isWord_ascii c (ho c rfl)
  rw [hword b hb, hword a ha]

theorem agree_digit (u : Unicode) : Agree IsAscii u.digit Unicode.ascii.digit := by
  apply Agree.char
  intro c hc
  rw [Unicode.isDigit, u.decimal_ascii c hc]
  rfl

/-- On ASCII the tables do not matter. -/
theorem agree_sensitiveRes (u : Unicode) :
    List.Forall₂ (Agree IsAscii) (sensitiveRes u) (sensitiveRes .ascii) := by
  have hb := agree_boundary u
  have hrefl : ∀ rs : List Regex, List.Forall₂ (Agree IsAscii) rs rs := fun rs =>
    List.forall₂_same.mpr fun r _ => .refl r
  refine .cons (.concat (.cons hb (hrefl _))) (.cons (.refl _) (.cons ?_ (.cons ?_
    (.cons (.concat (.cons hb (hrefl _))) (.cons ?_ (.cons ?_ (.cons ?_ .nil)))))))
  · exact .concat (.cons hb (.cons (.refl _) (.cons hb (hrefl _))))
  · exact .concat (.cons hb (.cons (.refl _) (.cons hb (hrefl _))))
  · exact .concat (.cons hb (.cons (.refl _) (.cons (.refl _) (.cons (.refl _) (.cons (.refl _)
      (.cons (.refl _) (.cons (.refl _) (.cons hb .nil))))))))
  · exact .concat (.cons hb (.cons (.refl _) (.cons (.refl _) (.cons (.refl _) (.cons hb .nil)))))
  · exact .concat (.cons hb (.cons ((agree_digit u).between 6 12) (.cons (.refl _) (.cons (.refl _)
      (.cons hb .nil)))))

theorem isSensitiveString_ascii (u : Unicode) {text : String} (h : ∀ c ∈ text.toList, IsAscii c) :
    isSensitiveString u text = isSensitiveString .ascii text := by
  have hany : ∀ {rs rs' : List Regex}, List.Forall₂ (Agree IsAscii) rs rs' →
      rs.any (occursIn · text) = rs'.any (occursIn · text) := by
    intro rs rs' hagree
    induction hagree with
    | nil => rfl
    | cons hr _ ih => rw [List.any_cons, List.any_cons, occursIn_congr hr h, ih]
  exact hany (agree_sensitiveRes u)

/-- The characters of a hash form. -/
def hashAlphabet : List Char := "0123456789abcdefsh:".toList

theorem mem_hashAlphabet {c : Char} (h : isHexChar c = true) : c ∈ hashAlphabet := by
  have hdigits : ∀ n < 103, (48 ≤ n ∧ n ≤ 57) ∨ (97 ≤ n ∧ n ≤ 102) → Char.ofNat n ∈ hashAlphabet := by
    decide
  simp only [isHexChar, Bool.or_eq_true, Bool.and_eq_true, decide_eq_true_eq, Char.le_def,
    UInt32.le_iff_toNat_le] at h
  have hc : (48 ≤ c.toNat ∧ c.toNat ≤ 57) ∨ (97 ≤ c.toNat ∧ c.toNat ≤ 102) := h
  rw [← Char.ofNat_toNat c]
  exact hdigits c.toNat (by omega) hc

theorem mem_hashAlphabet_of_mem_hashPrefix {c : Char} (h : c ∈ hashPrefix) : c ∈ hashAlphabet := by
  have hall : hashPrefix.all (fun c => hashAlphabet.contains c) = true := by decide
  exact List.contains_iff_mem.mp (List.all_eq_true.mp hall c h)

/-- Where a character occurs once, it splits the text in one way. -/
theorem split_unique {c : Char} {x y x' y' : List Char} (hx : c ∉ x) (hy : c ∉ y)
    (h : x ++ c :: y = x' ++ c :: y') : x = x' := by
  rcases List.append_eq_append_iff.mp h with ⟨z, rfl, hz⟩ | ⟨z, rfl, hz⟩
  · cases z with
    | nil => simp
    | cons d z =>
      obtain ⟨rfl, rfl⟩ := List.cons.inj hz
      simp at hy
  · cases z with
    | nil => simp
    | cons d z =>
      obtain ⟨rfl, -⟩ := List.cons.inj hz
      simp at hx

/-- Six digits before a colon: the `sha256` of a hash form is none. -/
theorem not_word_telegramToken {digits pre w post : List Char} (hdigits : ':' ∉ digits)
    (h : hashPrefix ++ digits = pre ++ (w ++ post)) : ¬ Word (telegramTokenRe u) w := by
  rintro ⟨_, _, rfl, ⟨d, _, hd, ⟨_, v, ⟨c, hc, rfl⟩, -, rfl⟩, rfl⟩, rfl⟩
  obtain rfl : c = ':' := by simpa using hc
  obtain ⟨hlen, hall⟩ := word_between_char hd
  have hsplit : ['s', 'h', 'a', '2', '5', '6'] ++ ':' :: digits = (pre ++ d) ++ ':' :: (v ++ post) := by
    simpa [hashPrefix] using h
  have heq := split_unique (by decide) hdigits hsplit
  have hpre : pre = [] := by
    have := congrArg List.length heq
    simp only [List.length_append, List.length_cons, List.length_nil] at this
    exact List.length_eq_zero_iff.mp (by omega)
  rw [hpre, List.nil_append] at heq
  have hs := hall 's' (by simp [← heq])
  rw [Unicode.isDigit, u.decimal_ascii 's' (by decide)] at hs
  exact absurd hs (by decide)

/-- A hash form is not sensitive. -/
theorem isSensitiveString_hash (u : Unicode) {text : String} {digits : List Char}
    (htext : text.toList = hashPrefix ++ digits) (hdigits : ∀ c ∈ digits, isHexChar c = true) :
    isSensitiveString u text = false := by
  have halphabet : ∀ c ∈ text.toList, c ∈ hashAlphabet := by
    intro c hc
    rw [htext] at hc
    rcases List.mem_append.mp hc with hc | hc
    · exact mem_hashAlphabet_of_mem_hashPrefix hc
    · exact mem_hashAlphabet (hdigits c hc)
  have hcolon : ':' ∉ digits := fun hmem => absurd (hdigits _ hmem) (by decide)
  unfold isSensitiveString sensitiveRes
  simp only [List.any_cons, List.any_nil, Bool.or_eq_false_iff]
  refine ⟨occursIn_eq_false hashAlphabet rfl halphabet,
    occursIn_eq_false hashAlphabet rfl halphabet,
    occursIn_eq_false hashAlphabet rfl halphabet,
    occursIn_eq_false hashAlphabet rfl halphabet,
    occursIn_eq_false hashAlphabet rfl halphabet,
    occursIn_eq_false hashAlphabet rfl halphabet,
    occursIn_eq_false hashAlphabet rfl halphabet, ?_, trivial⟩
  rw [← Bool.not_eq_true]
  intro hoccurs
  obtain ⟨pre, w, post, hsplit, hw⟩ := word_of_occursIn hoccurs
  exact not_word_telegramToken hcolon (htext ▸ hsplit) hw

end NotSensitive

/-! ## Identifiers and categories -/

/-- `sha256:` and the digest of a text. -/
def hashForm (platform : Platform) (text : String) : String := "sha256:" ++ (platform.sha256 text).text

/-- `safe_identifier` of a text. -/
def safeIdentifier (platform : Platform) (u : Unicode) (value : String) : String :=
  let text := strip value
  if text = "" then text
  else if isSensitiveString u text || !matchesSafeIdentifier text then hashForm platform text
  else text

/-- `opaque_trace_identifier` of a text. -/
def opaqueTraceIdentifier (platform : Platform) (value : String) : String :=
  let text := strip value
  if text = "" then text
  else if hashPrefix.isPrefixOf text.toList && matchesSafeHash text then text
  else hashForm platform text

/-- `safe_trace_run_id`, and `_safe_trace_metadata_identifier`. -/
def safeTraceRunId (platform : Platform) (u : Unicode) (value : String) : String :=
  let text := strip value
  if isTelegramSource text then opaqueTraceIdentifier platform text else safeIdentifier platform u text

/-- `trace_run_id_lookup_candidates`. -/
def traceRunIdLookupCandidates (platform : Platform) (u : Unicode) (value : String) : List String :=
  let text := strip value
  let safeValue := safeTraceRunId platform u text
  if text ≠ safeValue ∧ safeIdentifier platform u text = text ∧ isTelegramSource text then
    [safeValue, text]
  else [safeValue]

/-- `safe_category` of a text. -/
def safeCategory (u : Unicode) (value : String) : String :=
  let text := strip value
  if text = "" then text
  else if isSensitiveString u text || !matchesSafeCategory text then redacted
  else text

end Privacy

end PersonalAssistant
