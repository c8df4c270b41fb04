import Mathlib.Data.List.Infix
import PersonalAssistant.Domain.Errors
import PersonalAssistant.Domain.Unicode
import PersonalAssistant.Lib.Effect
import PersonalAssistant.Lib.Lines
import PersonalAssistant.Lib.RegexSpans

/-!
# Citations

A citation names one line of a source document, `filename:line`. It is written by `canonical` and read by
`parse_citation`, whose expression looks for the last colon of a single line.
-/
namespace PersonalAssistant

open Lib Regex

/-! ## Numbers in texts -/

def tooManyDigits : PyError := .valueError "Exceeds the limit (4300 digits) for integer string conversion"

/-- `str(n)`. -/
def intText (n : Nat) : Except PyError String :=
  if n < 10 ^ maxStrDigits then .ok (toString n) else .error tooManyDigits

namespace Unicode

variable (u : Unicode)

/-- `int(text)` of a text of decimal digits. -/
def readInt (digits : List Char) : Except PyError Nat :=
  if digits.length ≤ maxStrDigits then .ok (u.int digits) else .error tooManyDigits

/-- The tables give decimal digits the values they have. -/
def DigitsBelowTen : Prop := ∀ c d, u.decimal c = some d → d < 10

theorem ascii_digitsBelowTen : ascii.DigitsBelowTen := by
  intro c d h
  change Civil.digitValue c = some d at h
  unfold Civil.digitValue at h
  split_ifs at h
  cases h
  omega

end Unicode

/-! ## Citations -/

/-- `Citation`. -/
@[ext] structure Citation where
  filename : String
  line : Nat
  excerpt : Option String
  filename_trimmed : Trimmed filename
  filename_ne : filename ≠ ""
  filename_length : filename.length ≤ 260
  line_pos : 1 ≤ line
  excerpt_trimmed : ∀ e ∈ excerpt, Trimmed e
  excerpt_length : ∀ e ∈ excerpt, e.length ≤ 160

namespace Citation

/-- A citation without an excerpt. -/
def ofLine (filename : String) (line : Nat) (htrimmed : Trimmed filename) (hne : filename ≠ "")
    (hlength : filename.length ≤ 260) (hpos : 1 ≤ line) : Citation where
  filename
  line
  excerpt := none
  filename_trimmed := htrimmed
  filename_ne := hne
  filename_length := hlength
  line_pos := hpos
  excerpt_trimmed := by simp
  excerpt_length := by simp

/-- What the fields of a citation must satisfy, once trimmed. -/
def Valid (filename : String) (line : Nat) (excerpt : Option String) : Prop :=
  filename ≠ "" ∧ filename.length ≤ 260 ∧ 1 ≤ line ∧ ∀ e ∈ excerpt, e.length ≤ 160

instance (filename : String) (line : Nat) (excerpt : Option String) :
    Decidable (Valid filename line excerpt) := inferInstanceAs (Decidable (_ ∧ _ ∧ _ ∧ _))

def create (filename : String) (line : Nat) (excerpt : Option String) : Except PyError Citation :=
  if h : Valid (trim filename) line (excerpt.map trim) then
    .ok {
      filename := trim filename
      line
      excerpt := excerpt.map trim
      filename_trimmed := trimmed_trim filename
      filename_ne := h.1
      filename_length := h.2.1
      line_pos := h.2.2.1
      excerpt_trimmed := by
        intro e he
        obtain ⟨raw, -, rfl⟩ := Option.mem_map.mp he
        exact trimmed_trim raw
      excerpt_length := h.2.2.2 }
  else .error (.validationError "validation error for Citation")

theorem create_eq_ok {filename : String} {line : Nat} {excerpt : Option String} {c : Citation} :
    create filename line excerpt = .ok c ↔
      c.filename = trim filename ∧ c.line = line ∧ c.excerpt = excerpt.map trim := by
  unfold create
  constructor
  · intro h
    split_ifs at h
    cases h
    exact ⟨rfl, rfl, rfl⟩
  · rintro ⟨hfilename, rfl, hexcerpt⟩
    have hvalid : Valid (trim filename) c.line (excerpt.map trim) :=
      hfilename ▸ hexcerpt ▸ ⟨c.filename_ne, c.filename_length, c.line_pos, c.excerpt_length⟩
    rw [dif_pos hvalid]
    exact congrArg Except.ok (Citation.ext hfilename.symm rfl hexcerpt.symm)

/-- The canonical `filename:line` form. -/
def canonical (c : Citation) : Except PyError String := do
  return c.filename ++ ":" ++ (← intText c.line)

end Citation

def filenameGroup : Nat := 1
def lineGroup : Nat := 2

/-- `_CITATION_PATTERN`. It is matched against a stripped text, whose end is the only place `$` matches. -/
def citationPattern (u : Unicode) : Regex :=
  .concat [.group filenameGroup (.plus (.char (· != '\n'))), .lit ':', .group lineGroup (.plus u.digit),
    .atEnd]

/-- `parse_citation`. -/
def parseCitation (u : Unicode) (raw : String) : Except PyError Citation :=
  match (citationPattern u).matchStart (strip raw) with
  | none => .error (.assistant .validationFailed
      "invalid citation format; expected 'filename:line' with a positive integer line" none)
  | some m => do
    let line ← u.readInt ((m.group lineGroup).getD [])
    match Citation.create (String.ofList ((m.group filenameGroup).getD [])) line none with
    | .ok citation => .ok citation
    | .error _ => .error (.assistant .validationFailed
        "invalid citation; filename must be non-empty and line must be a positive integer" none)

/-- `verify_grounding`. -/
def verifyGrounding (sourceText : String) (c : Citation) : Except PyError Citation :=
  let lines := splitLines sourceText.toList
  if c.line > lines.length then
    .error (.assistant .guardrailBlocked
      "citation references a line that does not exist in the source document" none)
  else if c.excerpt.any fun e => !decide (e.toList <:+: lines.getD (c.line - 1) []) then
    .error (.assistant .guardrailBlocked
      "citation excerpt does not appear in the referenced source line" none)
  else .ok c

/-! ## What the expression splits -/

variable {u : Unicode}

theorem isDigit_ascii {c : Char} (h : c.isDigit = true) :
    u.decimal c = some (c.toNat - '0'.toNat) ∧ isSpace c = false := by
  have hc : 48 ≤ c.toNat ∧ c.toNat ≤ 57 := by
    simpa [Char.isDigit, UInt32.le_iff_toNat_le] using h
  refine ⟨?_, ?_⟩
  · rw [u.decimal_ascii c (by omega), Civil.digitValue, if_pos hc]
    rfl
  · simp only [isSpace, isWhiteSpace, Bool.or_eq_false_iff, Bool.and_eq_false_iff, beq_eq_false_iff_ne,
      decide_eq_false_iff_not]
    omega

theorem not_isDigit_colon : u.isDigit ':' = false := by
  simp [Unicode.isDigit, u.decimal_ascii ':' (by decide), Civil.digitValue]

/-- A name and a number, as the expression takes them. -/
structure Reference (u : Unicode) (name digits : List Char) : Prop where
  name_ne : name ≠ []
  oneLine : '\n' ∉ name
  digits_ne : digits ≠ []
  isDigit : ∀ c ∈ digits, u.isDigit c = true

/-- The digits hold no colon, so a text is split in one way at most. -/
theorem split_unique {name name' digits digits' : List Char} (h : ∀ c ∈ digits, u.isDigit c = true)
    (h' : ∀ c ∈ digits', u.isDigit c = true) (heq : name ++ ':' :: digits = name' ++ ':' :: digits') :
    name = name' ∧ digits = digits' := by
  have hcolon : ∀ {a : List Char}, (∀ c ∈ a, u.isDigit c = true) → ':' ∉ a := by
    intro a ha hmem
    simpa [not_isDigit_colon] using ha ':' hmem
  rcases List.append_eq_append_iff.mp heq with ⟨a, rfl, ha⟩ | ⟨a, rfl, ha⟩
  · cases a with
    | nil => simpa using ha
    | cons c a =>
      simp only [List.cons_append, List.cons.injEq] at ha
      exact absurd (by simp [ha.2]) (hcolon h)
  · cases a with
    | nil => simpa [eq_comm] using ha
    | cons c a =>
      simp only [List.cons_append, List.cons.injEq] at ha
      exact absurd (by simp [ha.2]) (hcolon h')

theorem mem_run_citationPattern {s t : Cursor} : t ∈ (citationPattern u).run s ↔
    ∃ name digits, Reference u name digits ∧ s.rest = name ++ ':' :: digits ∧
      t = { s.advance (name ++ ':' :: digits) [] with
        groups := (lineGroup, digits) :: (filenameGroup, name) :: s.groups } := by
  constructor
  · intro h
    obtain ⟨s₁, h₁, h⟩ := List.mem_flatMap.mp h
    obtain ⟨s₂, h₂, h⟩ := List.mem_flatMap.mp h
    obtain ⟨s₃, h₃, h⟩ := List.mem_flatMap.mp h
    obtain ⟨_, hname, rfl⟩ := List.mem_map.mp h₁
    obtain ⟨name, rest, hne, hline, hs, rfl⟩ := mem_run_plus_char.mp hname
    rw [capture_advance hs] at h₂
    obtain ⟨rest', hrest, rfl⟩ := mem_run_lit.mp h₂
    obtain ⟨_, hdigits, rfl⟩ := List.mem_map.mp h₃
    obtain ⟨digits, last, hdne, hdigit, hrest', rfl⟩ := mem_run_plus_char.mp hdigits
    rw [capture_advance hrest'] at h
    obtain ⟨rfl, rfl⟩ := mem_run_atEnd.mp h
    obtain rfl : rest = ':' :: rest' := hrest
    obtain rfl : rest' = digits := hrest'.trans (List.append_nil digits)
    refine ⟨name, rest', ⟨hne, ?_, hdne, hdigit⟩, hs, ?_⟩
    · intro hmem
      simpa using hline _ hmem
    · simp [Cursor.advance]
  · rintro ⟨name, digits, href, hs, rfl⟩
    have hname : s.advance name (':' :: digits) ∈ run (plus (char (· != '\n'))) s := by
      refine mem_run_plus_char.mpr ⟨name, _, href.name_ne, fun c hc => ?_, hs, rfl⟩
      rw [bne_iff_ne]
      rintro rfl
      exact href.oneLine hc
    refine List.mem_flatMap.mpr ⟨_, List.mem_map.mpr ⟨_, hname, capture_advance hs⟩, ?_⟩
    refine List.mem_flatMap.mpr ⟨_, mem_run_lit.mpr ⟨digits, rfl, rfl⟩, ?_⟩
    refine List.mem_flatMap.mpr ⟨_, List.mem_map.mpr ⟨_, mem_run_plus_char.mpr
      ⟨digits, [], href.digits_ne, href.isDigit, (List.append_nil digits).symm, rfl⟩,
      capture_advance (List.append_nil digits).symm⟩, ?_⟩
    refine mem_run_atEnd.mpr ⟨rfl, ?_⟩
    simp [Cursor.advance]

theorem matchStart_citationPattern {name digits : List Char} {text : String} (href : Reference u name digits)
    (htext : text.toList = name ++ ':' :: digits) : ∃ m, (citationPattern u).matchStart text = some m ∧
      m.group filenameGroup = some name ∧ m.group lineGroup = some digits := by
  have hmem := (mem_run_citationPattern (s := .ofText text.toList)).mpr ⟨name, digits, href, htext, rfl⟩
  obtain ⟨t, ht⟩ := Option.ne_none_iff_exists'.mp (mt List.head?_eq_none_iff.mp (List.ne_nil_of_mem hmem))
  obtain ⟨name', digits', href', hsplit, rfl⟩ := mem_run_citationPattern.mp (List.mem_of_mem_head? ht)
  obtain ⟨rfl, rfl⟩ := split_unique href.isDigit href'.isDigit (htext.symm.trans hsplit)
  exact ⟨_, congrArg (Option.map (Match.mk _)) ht, rfl, rfl⟩

theorem reference_of_matchStart {text : String} {m : Match}
    (h : (citationPattern u).matchStart text = some m) :
    ∃ name digits, Reference u name digits ∧ text.toList = name ++ ':' :: digits := by
  obtain ⟨t, ht, -⟩ := Option.map_eq_some_iff.mp h
  obtain ⟨name, digits, href, htext, -⟩ := mem_run_citationPattern.mp (List.mem_of_mem_head? ht)
  exact ⟨name, digits, href, htext⟩

/-- `parse_citation` accepts a name and a number that make a citation. -/
theorem parseCitation_eq_ok {raw : String} {d : Citation} : parseCitation u raw = .ok d ↔
    ∃ name digits, Reference u name digits ∧ (strip raw).toList = name ++ ':' :: digits ∧
      digits.length ≤ maxStrDigits ∧ Citation.create (String.ofList name) (u.int digits) none = .ok d := by
  constructor
  · intro h
    unfold parseCitation at h
    cases hm : (citationPattern u).matchStart (strip raw) with
    | none => simp [hm] at h
    | some m =>
      obtain ⟨name, digits, href, htext⟩ := reference_of_matchStart hm
      obtain ⟨m', hm', hname, hdigits⟩ := matchStart_citationPattern href htext
      obtain rfl := Option.some.inj (hm.symm.trans hm')
      simp only [hm, hname, hdigits, Option.getD_some] at h
      obtain ⟨line, hline, h⟩ := except_bind_eq_ok.mp h
      unfold Unicode.readInt at hline
      split_ifs at hline with hlen
      cases hline
      cases hc : Citation.create (String.ofList name) (u.int digits) none with
      | error e => simp [hc] at h
      | ok c =>
        simp only [hc] at h
        exact ⟨name, digits, href, htext, hlen, hc.trans h⟩
  · rintro ⟨name, digits, href, htext, hlen, hc⟩
    obtain ⟨m, hm, hname, hdigits⟩ := matchStart_citationPattern href htext
    simp [parseCitation, hm, hname, hdigits, Unicode.readInt, hlen, hc]

/-! ## Writing and reading back -/

theorem isDigit_of_mem_toString {n : Nat} {c : Char} (h : c ∈ (toString n).toList) : c.isDigit = true := by
  rw [Nat.toString_eq_repr, Nat.toList_repr] at h
  exact Nat.isDigit_of_mem_toDigits (by decide) (by decide) h

theorem toString_ne_nil (n : Nat) : (toString n).toList ≠ [] := by
  rw [Nat.toString_eq_repr, Nat.toList_repr]
  exact Nat.toDigits_ne_nil

/-- An integer is read as it was written. -/
theorem Unicode.int_toString (n : Nat) : u.int (toString n).toList = n := by
  have hfold : ∀ (cs : List Char) (init : Nat), (∀ c ∈ cs, c.isDigit = true) →
      cs.foldl (fun n c => n * 10 + (u.decimal c).getD 0) init = Nat.ofDigitChars 10 cs init := by
    intro cs
    induction cs with
    | nil => simp
    | cons c cs ih =>
      intro init h
      rw [List.foldl_cons, ih _ fun d hd => h d (by simp [hd]), Nat.ofDigitChars_cons,
        (isDigit_ascii (h c (by simp))).1, Option.getD_some, Nat.mul_comm]
  rw [Unicode.int, hfold _ _ fun c hc => isDigit_of_mem_toString hc, Nat.toString_eq_repr, Nat.toList_repr,
    Nat.ofDigitChars_ten_toDigits]

/-- A text of digits is below the power of ten of its length. -/
theorem Unicode.int_lt (hu : u.DigitsBelowTen) {digits : List Char}
    (h : ∀ c ∈ digits, u.isDigit c = true) : u.int digits < 10 ^ digits.length := by
  have hfold : ∀ (cs : List Char) (init k : Nat), (∀ c ∈ cs, u.isDigit c = true) → init < 10 ^ k →
      cs.foldl (fun n c => n * 10 + (u.decimal c).getD 0) init < 10 ^ (k + cs.length) := by
    intro cs
    induction cs with
    | nil => simp
    | cons c cs ih =>
      intro init k hcs hinit
      obtain ⟨d, hd⟩ := Option.isSome_iff_exists.mp (hcs c (by simp))
      have hlt := hu c d hd
      rw [List.foldl_cons, hd, Option.getD_some, List.length_cons, Nat.add_comm cs.length, ← Nat.add_assoc]
      apply ih _ _ fun e he => hcs e (by simp [he])
      rw [Nat.pow_succ]
      omega
  have := hfold digits 0 0 h (by simp)
  rwa [Nat.zero_add] at this

theorem reference_toString {name : List Char} {n : Nat} (hne : name ≠ []) (hline : '\n' ∉ name) :
    Reference u name (toString n).toList where
  name_ne := hne
  oneLine := hline
  digits_ne := toString_ne_nil n
  isDigit c hc := by simp [Unicode.isDigit, (isDigit_ascii (isDigit_of_mem_toString hc)).1]

/-- A number behind a colon shields the right end of a text from stripping. -/
theorem strip_reference (name : List Char) (n : Nat) :
    stripList isSpace (name ++ ':' :: (toString n).toList) =
      name.dropWhile isSpace ++ ':' :: (toString n).toList := by
  have hdrop : (name ++ ':' :: (toString n).toList).dropWhile isSpace =
      name.dropWhile isSpace ++ ':' :: (toString n).toList := by
    rw [List.dropWhile_append]
    split_ifs with h
    · rw [List.isEmpty_iff.mp h]
      rfl
    · rfl
  rw [stripList, hdrop, List.rdropWhile_eq_self_iff]
  intro hne
  have hlast : ∀ c ∈ (toString n).toList, isSpace c = false := fun c hc =>
    (isDigit_ascii (u := .ascii) (isDigit_of_mem_toString hc)).2
  have hmem : (name.dropWhile isSpace ++ ':' :: (toString n).toList).getLast hne ∈ (toString n).toList := by
    rw [List.getLast_append_of_ne_nil _ (by simp), List.getLast_cons (toString_ne_nil n)]
    exact List.getLast_mem _
  rw [Bool.not_eq_true]
  exact hlast _ hmem

/-- Writing a citation and reading it back gives the citation. -/
def RoundTrips (u : Unicode) (c : Citation) : Prop := (c.canonical >>= parseCitation u) = .ok c

/-- The condition: one line, no blank character in front, a number the interpreter writes out. -/
structure Citation.Writable (c : Citation) : Prop where
  oneLine : '\n' ∉ c.filename.toList
  head : ∀ x ∈ c.filename.toList.head?, isSpace x = false
  line_lt : c.line < 10 ^ maxStrDigits

theorem toList_canonical (c : Citation) :
    (c.filename ++ ":" ++ toString c.line).toList = c.filename.toList ++ ':' :: (toString c.line).toList := by
  simp

theorem canonical_eq_ok {c : Citation} {text : String} : c.canonical = .ok text ↔
    c.line < 10 ^ maxStrDigits ∧ text = c.filename ++ ":" ++ toString c.line := by
  unfold Citation.canonical intText
  split_ifs with h <;> simp [h, pure, Except.pure, eq_comm]

theorem roundTrips_of_writable {c : Citation} (hexcerpt : c.excerpt = none) (h : c.Writable) :
    RoundTrips u c := by
  rw [RoundTrips, canonical_eq_ok.mpr ⟨h.line_lt, rfl⟩, except_ok_bind]
  have hne : c.filename.toList ≠ [] := fun hnil => c.filename_ne (String.toList_eq_nil_iff.mp hnil)
  have hdrop : c.filename.toList.dropWhile isSpace = c.filename.toList := by
    obtain ⟨x, xs, hx⟩ := List.exists_cons_of_ne_nil hne
    rw [hx, List.dropWhile_cons_of_neg]
    simpa using h.head x (by simp [hx])
  refine parseCitation_eq_ok.mpr
    ⟨_, (toString c.line).toList, reference_toString hne h.oneLine, ?_, ?_, ?_⟩
  · rw [strip, toList_stripBy, toList_canonical, strip_reference, hdrop]
  · rw [String.length_toList, Nat.toString_eq_repr, Nat.length_repr_le_iff (by decide)]
    exact h.line_lt
  · rw [Unicode.int_toString, String.ofList_toList]
    exact Citation.create_eq_ok.mpr ⟨c.filename_trimmed.symm, rfl, hexcerpt⟩

theorem writable_of_roundTrips {c : Citation} (h : RoundTrips u c) : c.Writable := by
  obtain ⟨text, htext, h⟩ := except_bind_eq_ok.mp h
  obtain ⟨hline, rfl⟩ := canonical_eq_ok.mp htext
  obtain ⟨name, digits, href, hsplit, -, hc⟩ := parseCitation_eq_ok.mp h
  rw [strip, toList_stripBy, toList_canonical, strip_reference] at hsplit
  have hnumber : ∀ x ∈ (toString c.line).toList, u.isDigit x = true := fun x hx => by
    simp [Unicode.isDigit, (isDigit_ascii (isDigit_of_mem_toString hx)).1]
  obtain ⟨rfl, -⟩ := split_unique hnumber href.isDigit hsplit
  -- the name read back is no longer than the text it is trimmed from, so nothing was stripped
  have hname : c.filename.toList = stripList isWhiteSpace (c.filename.toList.dropWhile isSpace) := by
    rw [← String.toList_ofList (l := c.filename.toList.dropWhile isSpace), ← toList_stripBy]
    exact congrArg String.toList (Citation.create_eq_ok.mp hc).1
  have hdrop : c.filename.toList.dropWhile isSpace = c.filename.toList := by
    apply (List.dropWhile_suffix isSpace).eq_of_length_le
    exact (congrArg List.length hname).trans_le (length_stripList_le _ _)
  refine ⟨hdrop ▸ href.oneLine, ?_, hline⟩
  intro x hx
  have hhead := List.head?_dropWhile_not isSpace c.filename.toList
  rw [hdrop, Option.mem_def.mp hx] at hhead
  simpa using hhead

/-- Whatever was read is written and read back. -/
theorem writable_of_parseCitation (hu : u.DigitsBelowTen) {raw : String} {d : Citation}
    (h : parseCitation u raw = .ok d) : d.excerpt = none ∧ d.Writable := by
  obtain ⟨name, digits, href, hsplit, hlen, hc⟩ := parseCitation_eq_ok.mp h
  obtain ⟨hfilename, hline, hexcerpt⟩ := Citation.create_eq_ok.mp hc
  have hname : d.filename.toList = stripList isWhiteSpace name := by
    rw [hfilename, trim, toList_stripBy, String.toList_ofList]
  have hhead : ∀ x ∈ name.head?, isSpace x = false := by
    intro x hx
    obtain ⟨y, ys, rfl⟩ := List.exists_cons_of_ne_nil href.name_ne
    have := head?_stripList (p := isSpace) raw.toList x
    rw [← toList_stripBy] at this
    exact this (by rw [← strip, hsplit]; exact hx)
  have hfile : d.filename.toList <+: name := by
    obtain ⟨y, ys, rfl⟩ := List.exists_cons_of_ne_nil href.name_ne
    rw [hname, stripList, List.dropWhile_cons_of_neg
      (by simp [isWhiteSpace_eq_false_of_isSpace (hhead y rfl)])]
    exact List.rdropWhile_prefix _ _
  refine ⟨hexcerpt, fun hmem => href.oneLine (hfile.subset hmem), ?_, ?_⟩
  · intro x hx
    obtain ⟨post, hpost⟩ := hfile
    apply hhead x
    rw [← hpost, List.head?_append, Option.mem_def.mp hx]
    rfl
  · rw [hline]
    exact (Unicode.int_lt hu href.isDigit).trans_le (Nat.pow_le_pow_right (by decide) hlen)

/-- A citation without an excerpt is read back as it was written exactly when its filename is on one line
and has no blank character in front and its line number can be written; a citation that was read always is. -/
theorem citation_round_trip (hu : u.DigitsBelowTen) :
    (∀ c : Citation, c.excerpt = none → (RoundTrips u c ↔ c.Writable)) ∧
      ∀ (raw : String) (d : Citation), parseCitation u raw = .ok d → RoundTrips u d := by
  refine ⟨fun c hc => ⟨writable_of_roundTrips, roundTrips_of_writable hc⟩, fun raw d h => ?_⟩
  obtain ⟨hexcerpt, hwritable⟩ := writable_of_parseCitation hu h
  exact roundTrips_of_writable hexcerpt hwritable

/-- `notes:2024.txt:3`, a filename with a colon and digits. -/
def notesCitation : Citation := .ofLine "notes:2024.txt" 3 (by decide) (by decide) (by decide) (by decide)

theorem notesCitation_round_trip : RoundTrips .ascii notesCitation := by
  have hhead : ∀ x ∈ notesCitation.filename.toList.head?, isSpace x = false := by
    intro x hx
    obtain rfl : 'n' = x := Option.some.inj hx
    decide
  exact ((citation_round_trip Unicode.ascii_digitsBelowTen).1 notesCitation rfl).mpr
    ⟨by decide, hhead, Nat.lt_trans (by decide : 3 < 10 ^ 1) (Nat.pow_lt_pow_right (by decide) (by decide))⟩

/-- A filename over two lines. -/
def twoLineCitation : Citation := .ofLine "notes\n2024.txt" 1 (by decide) (by decide) (by decide) (by decide)

/-- The expression does not read a filename over two lines. -/
theorem not_all_citations_round_trip : ¬ ((∀ c : Citation, c.excerpt = none → RoundTrips .ascii c) ∧
    ∀ (raw : String) (d : Citation), parseCitation .ascii raw = .ok d → RoundTrips .ascii d) := by
  intro h
  exact (writable_of_roundTrips (h.1 twoLineCitation rfl)).oneLine (by decide)

end PersonalAssistant
