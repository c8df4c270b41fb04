import PersonalAssistant.Documents.Citations

/-!
# Document summaries

A summary is the first words of a document. Its citations are made line by line, counting down from the
word limit, and each is checked against the document before and after it is written.
-/
namespace PersonalAssistant

open Lib

def summaryWordLimit : Nat := 60

/-- The words of a summary. -/
def summaryWords (text : String) : List (List Char) := (splitWords text.toList).take summaryWordLimit

namespace DocumentService

variable (u : Unicode) (filename text : String)

/-- The citation of one line, validated and written. -/
def citeLine (lineNumber : Nat) (lineText : List Char) : Except PyError String := do
  let excerpt := String.ofList ((stripList isSpace lineText).take 160)
  let citation ← Citation.create filename lineNumber (some excerpt)
  let _ ← verifyGrounding text citation
  let validated ← parseCitation u (← citation.canonical)
  let _ ← verifyGrounding text validated
  validated.canonical

/-- The loop over the lines, with the words still to be covered. -/
def citeLines (remainingWords : Int) : List (List Char × Nat) → Except PyError (List String)
  | [] => .ok []
  | (lineText, lineNumber) :: rest =>
    if remainingWords ≤ 0 then .ok []
    else if splitWords lineText = [] then citeLines remainingWords rest
    else do
      let citation ← citeLine u filename text lineNumber lineText
      let citations ← citeLines (remainingWords - (splitWords lineText).length) rest
      return citation :: citations

/-- `_grounded_citations`. -/
def groundedCitations : Except PyError (List String) := do
  let citations ← citeLines u filename text summaryWordLimit ((splitLines text.toList).zipIdx 1)
  if citations = [] then
    .error (.assistant .validationFailed "document summary has no groundable source lines" none)
  else return citations

/-! ## One line -/

variable {u filename text}

theorem infix_stripList (p : Char → Bool) (cs : List Char) : stripList p cs <:+: cs :=
  (List.rdropWhile_prefix p _).isInfix.trans (List.dropWhile_suffix p).isInfix

/-- A filename that a citation keeps as it is and the expression reads. -/
structure PlainFilename (filename : String) : Prop where
  ne : filename ≠ ""
  length_le : filename.length ≤ 260
  stripped : strip filename = filename
  oneLine : ∀ c ∈ filename.toList, isLineBreak c = false

theorem PlainFilename.trim_eq (h : PlainFilename filename) : trim filename = filename := by
  have := trimmed_strip filename
  rwa [h.stripped] at this

/-- The citation of a line, without an excerpt. -/
def PlainFilename.citation (h : PlainFilename filename) (number : Nat) (hpos : 1 ≤ number) : Citation :=
  .ofLine filename number h.trim_eq h.ne h.length_le hpos

theorem PlainFilename.writable (h : PlainFilename filename) {number : Nat} (hpos : 1 ≤ number)
    (hlt : number < 10 ^ maxStrDigits) : (h.citation number hpos).Writable where
  oneLine hmem := by simpa [isLineBreak] using h.oneLine _ hmem
  head x hx := by
    have := head?_stripList (p := isSpace) filename.toList x
    rw [← toList_stripBy, ← strip, h.stripped] at this
    exact this hx
  line_lt := hlt

theorem verifyGrounding_eq {c : Citation} {line : List Char}
    (hline : (splitLines text.toList)[c.line - 1]? = some line) (hpos : 1 ≤ c.line)
    (hexcerpt : ∀ e ∈ c.excerpt, e.toList <:+: line) : verifyGrounding text c = .ok c := by
  obtain ⟨hlt, hget⟩ := List.getElem?_eq_some_iff.mp hline
  have hin : ¬ c.line > (splitLines text.toList).length := by omega
  have hexcerpt' : (c.excerpt.any fun e => !decide (e.toList <:+: line)) = false := by
    cases hc : c.excerpt with
    | none => rfl
    | some e => simp [hexcerpt e hc]
  simp only [verifyGrounding, hin, if_false, List.getD_eq_getElem?_getD, hline, Option.getD_some, hexcerpt',
    Bool.false_eq_true]

/-- Every check of a line of the document succeeds. -/
theorem citeLine_eq (h : PlainFilename filename) {number : Nat} {line : List Char} (hpos : 1 ≤ number)
    (hline : (splitLines text.toList)[number - 1]? = some line) (hlt : number < 10 ^ maxStrDigits) :
    citeLine u filename text number line = .ok (filename ++ ":" ++ toString number) := by
  let excerpt := String.ofList ((stripList isSpace line).take 160)
  have hinfix : (trim excerpt).toList <:+: line := by
    rw [trim, toList_stripBy, String.toList_ofList]
    exact (infix_stripList _ _).trans ((List.take_prefix _ _).isInfix.trans (infix_stripList _ _))
  have hlength : (trim excerpt).length ≤ 160 := by
    rw [← String.length_toList, trim, toList_stripBy, String.toList_ofList]
    exact (length_stripList_le _ _).trans (List.length_take_le _ _)
  let cited : Citation := { h.citation number hpos with
    excerpt := some (trim excerpt)
    excerpt_trimmed := by simpa using trimmed_trim excerpt
    excerpt_length := by simpa using hlength }
  let bare := h.citation number hpos
  have hcreate : Citation.create filename number (some excerpt) = .ok cited :=
    Citation.create_eq_ok.mpr ⟨h.trim_eq.symm, rfl, rfl⟩
  have hcanonical : ∀ c : Citation, c.filename = filename → c.line = number →
      c.canonical = .ok (filename ++ ":" ++ toString number) := by
    rintro c rfl rfl
    exact canonical_eq_ok.mpr ⟨hlt, rfl⟩
  have hparse : parseCitation u (filename ++ ":" ++ toString number) = .ok bare := by
    have hround := roundTrips_of_writable (u := u) (c := bare) rfl (h.writable hpos hlt)
    rwa [RoundTrips, hcanonical bare rfl rfl, except_ok_bind] at hround
  have hgrounded : verifyGrounding text cited = .ok cited :=
    verifyGrounding_eq hline hpos (by simpa [cited] using hinfix)
  have hgrounded' : verifyGrounding text bare = .ok bare :=
    verifyGrounding_eq hline hpos (by simp [bare, PlainFilename.citation, Citation.ofLine])
  change (Citation.create filename number (some excerpt) >>= _) = _
  rw [hcreate, except_ok_bind, hgrounded, except_ok_bind, hcanonical cited rfl rfl, except_ok_bind, hparse,
    except_ok_bind, hgrounded', except_ok_bind, hcanonical bare rfl rfl]

/-! ## The loop -/

/-- The lines the loop goes over before it has counted down the words. -/
def linesNeeded (words : Int) : List (List Char) → Nat
  | [] => 0
  | line :: rest => if words ≤ 0 then 0 else linesNeeded (words - (splitWords line).length) rest + 1

theorem citeLines_of_nonpos {words : Int} (h : words ≤ 0) (lines : List (List Char × Nat)) :
    citeLines u filename text words lines = .ok [] := by
  cases lines with
  | nil => rfl
  | cons e lines => simp [citeLines, h]

/-- Words beyond those the lines have are never counted. -/
theorem citeLines_min (words : Int) (lines : List (List Char × Nat)) :
    citeLines u filename text words lines =
      citeLines u filename text (min words ((lines.map Prod.fst).flatMap splitWords).length) lines := by
  induction lines generalizing words with
  | nil => rfl
  | cons e rest ih =>
    obtain ⟨line, number⟩ := e
    by_cases hwords : words ≤ 0
    · rw [citeLines_of_nonpos hwords, citeLines_of_nonpos (min_le_of_left_le hwords)]
    · by_cases hblank : splitWords line = []
      · have hstep : ∀ k : Int, citeLines u filename text k ((line, number) :: rest) =
            citeLines u filename text k rest := by
          intro k
          by_cases hk : k ≤ 0
          · rw [citeLines_of_nonpos hk, citeLines_of_nonpos hk]
          · simp [citeLines, hk, hblank]
        rw [hstep, hstep, ih words]
        simp [hblank]
      · have hpos : 0 < (splitWords line).length := List.length_pos_iff.mpr hblank
        have htotal : min words ((((line, number) :: rest).map Prod.fst).flatMap splitWords).length -
            (splitWords line).length =
            min (words - (splitWords line).length) ((rest.map Prod.fst).flatMap splitWords).length := by
          simp only [List.map_cons, List.flatMap_cons, List.length_append, Nat.cast_add]
          omega
        have hmin : ¬ min words ((((line, number) :: rest).map Prod.fst).flatMap splitWords).length ≤ 0 := by
          simp only [List.map_cons, List.flatMap_cons, List.length_append, Nat.cast_add]
          omega
        simp only [citeLines, hwords, hmin, if_false, hblank, htotal,
          ih (words - ((splitWords line).length : Int))]

/-- The loop cites the lines with words among those it needs. -/
theorem citeLines_eq {words : Int} {lines : List (List Char × Nat)}
    (h : ∀ e ∈ lines, citeLine u filename text e.2 e.1 = .ok (filename ++ ":" ++ toString e.2)) :
    citeLines u filename text words lines =
      .ok (((lines.take (linesNeeded words (lines.map Prod.fst))).filter fun e => splitWords e.1 ≠ []).map
        fun e => filename ++ ":" ++ toString e.2) := by
  induction lines generalizing words with
  | nil => rfl
  | cons e rest ih =>
    have hrest := fun k => @ih k fun e he => h e (List.mem_cons_of_mem _ he)
    have hline := h e List.mem_cons_self
    obtain ⟨line, number⟩ := e
    by_cases hwords : words ≤ 0
    · simp [citeLines, linesNeeded, hwords]
    · by_cases hblank : splitWords line = []
      · simp [citeLines, linesNeeded, hwords, hblank, hrest]
      · simp [citeLines, linesNeeded, hwords, hblank, hrest, hline, pure, Except.pure]

/-- The lines needed hold the words asked for, and fewer lines do not. -/
theorem linesNeeded_spec {words : Int} {lines : List (List Char)}
    (h : words ≤ (lines.flatMap splitWords).length) :
    words ≤ ((lines.take (linesNeeded words lines)).flatMap splitWords).length ∧
      ∀ count < linesNeeded words lines, ((lines.take count).flatMap splitWords).length < words := by
  induction lines generalizing words with
  | nil => exact ⟨h, by simp [linesNeeded]⟩
  | cons line rest ih =>
    by_cases hwords : words ≤ 0
    · exact ⟨hwords.trans (Int.natCast_nonneg _), by simp [linesNeeded, hwords]⟩
    · simp only [List.flatMap_cons, List.length_append, Nat.cast_add] at h
      obtain ⟨hcovers, hleast⟩ := @ih (words - (splitWords line).length) (by omega)
      simp only [linesNeeded, hwords, if_false]
      refine ⟨?_, fun count hcount => ?_⟩
      · simp only [List.take_succ_cons, List.flatMap_cons, List.length_append, Nat.cast_add]
        omega
      · cases count with
        | zero => simpa using hwords
        | succ count =>
          have := hleast count (by omega)
          simp only [List.take_succ_cons, List.flatMap_cons, List.length_append, Nat.cast_add]
          omega

/-! ## The citations of a summary -/

/-- The first lines of a document hold the words of its summary. -/
def Covers (text : String) (count : Nat) : Prop :=
  summaryWords text <+: ((splitLines text.toList).take count).flatMap splitWords

/-- The numbers of the lines with words among the first ones. -/
def nonblankLines (text : String) (count : Nat) : List Nat :=
  ((((splitLines text.toList).take count).zipIdx 1).filter fun e => splitWords e.1 ≠ []).map Prod.snd

theorem covers_iff {count : Nat} : Covers text count ↔
    min summaryWordLimit (splitWords text.toList).length ≤
      (((splitLines text.toList).take count).flatMap splitWords).length := by
  have hprefix : ((splitLines text.toList).take count).flatMap splitWords <+: splitWords text.toList := by
    obtain ⟨rest, hrest⟩ := List.take_prefix count (splitLines text.toList)
    refine ⟨rest.flatMap splitWords, ?_⟩
    rw [← List.flatMap_append, hrest, flatMap_splitWords_splitLines]
  constructor
  · intro h
    simpa [summaryWords] using h.length_le
  · intro h
    refine List.prefix_of_prefix_length_le (List.take_prefix _ _) hprefix ?_
    rwa [← List.length_take] at h

theorem nonblankLines_pairwise (count : Nat) : (nonblankLines text count).Pairwise (· < ·) := by
  have hsub : List.Sublist (nonblankLines text count)
      ((((splitLines text.toList).take count).zipIdx 1).map Prod.snd) := List.filter_sublist.map _
  rw [List.zipIdx_map_snd] at hsub
  exact (List.pairwise_lt_range' 1).sublist hsub

/-- A word among the first lines is on a cited one. -/
theorem exists_mem_nonblankLines {count : Nat} {w : List Char}
    (hw : w ∈ ((splitLines text.toList).take count).flatMap splitWords) :
    ∃ n ∈ nonblankLines text count, w ∈ splitWords ((splitLines text.toList).getD (n - 1) []) := by
  obtain ⟨line, hline, hword⟩ := List.mem_flatMap.mp hw
  obtain ⟨i, hi⟩ := List.mem_iff_getElem?.mp hline
  have hget : (splitLines text.toList)[i]? = some line := by
    rw [List.getElem?_take] at hi
    split_ifs at hi
    exact hi
  have hmem : (line, i + 1) ∈ ((splitLines text.toList).take count).zipIdx 1 := by
    simpa [List.mk_mem_zipIdx_iff_le_and_getElem?_sub] using hi
  have hne : splitWords line ≠ [] := List.ne_nil_of_mem hword
  refine ⟨i + 1, List.mem_map.mpr ⟨(line, i + 1), List.mem_filter.mpr ⟨hmem, by simpa using hne⟩, rfl⟩, ?_⟩
  simpa [List.getD_eq_getElem?_getD, hget] using hword

theorem take_zipIdx {α : Type} (l : List α) (count start : Nat) :
    (l.zipIdx start).take count = (l.take count).zipIdx start := by
  induction l generalizing count start with
  | nil => simp
  | cons a l ih => cases count <;> simp [ih]

/-- The longest text of the host. -/
def maxTextLength : Nat := 2 ^ 63 - 1

/-- The shortest prefix of the lines that holds the words of the summary. -/
def coveringLines (text : String) : Nat :=
  linesNeeded (min summaryWordLimit (splitWords text.toList).length : Nat) (splitLines text.toList)

theorem coveringLines_spec (text : String) :
    Covers text (coveringLines text) ∧ ∀ count < coveringLines text, ¬ Covers text count := by
  obtain ⟨hcovers, hleast⟩ := @linesNeeded_spec (min summaryWordLimit (splitWords text.toList).length : Nat)
    (splitLines text.toList) (by
      rw [flatMap_splitWords_splitLines]
      exact_mod_cast min_le_right _ _)
  refine ⟨covers_iff.mpr (by exact_mod_cast hcovers), fun count hcount hless => ?_⟩
  have hlt := hleast count hcount
  have hge := covers_iff.mp hless
  omega

theorem citeLines_splitLines (h : PlainFilename filename) (hsize : text.length ≤ maxTextLength) :
    citeLines u filename text summaryWordLimit ((splitLines text.toList).zipIdx 1) =
      .ok ((nonblankLines text (coveringLines text)).map fun n => filename ++ ":" ++ toString n) := by
  have hlines : ((splitLines text.toList).zipIdx 1).map Prod.fst = splitLines text.toList :=
    List.zipIdx_map_fst 1 _
  rw [citeLines_min, hlines, flatMap_splitWords_splitLines, citeLines_eq, hlines]
  · have hmin : ((min summaryWordLimit (splitWords text.toList).length : Nat) : Int) =
        min (summaryWordLimit : Int) (splitWords text.toList).length := by omega
    rw [nonblankLines, coveringLines, List.map_map, hmin, take_zipIdx]
    rfl
  · rintro ⟨line, number⟩ he
    obtain ⟨hpos, hget⟩ := List.mk_mem_zipIdx_iff_le_and_getElem?_sub.mp he
    refine citeLine_eq h hpos hget ?_
    obtain ⟨hlt, -⟩ := List.getElem?_eq_some_iff.mp hget
    have hcount := length_splitLines_le text.toList
    have hbound : maxTextLength + 2 < 10 ^ maxStrDigits :=
      Nat.lt_trans (by decide : maxTextLength + 2 < 10 ^ 20) (Nat.pow_lt_pow_right (by decide) (by decide))
    rw [String.length_toList] at hcount
    omega

/-- The citations of a summary are the lines with words of the shortest prefix of the lines that holds its
words, in order. -/
theorem grounded_citations_exact (h : PlainFilename filename) (htext : ∃ c ∈ text.toList, isSpace c = false)
    (hsize : text.length ≤ maxTextLength) :
    ∃ count, Covers text count ∧ (∀ fewer < count, ¬ Covers text fewer) ∧
      groundedCitations u filename text =
        .ok ((nonblankLines text count).map fun n => filename ++ ":" ++ toString n) ∧
      (nonblankLines text count).Pairwise (· < ·) ∧
      ∀ w ∈ summaryWords text, ∃ n ∈ nonblankLines text count,
        w ∈ splitWords ((splitLines text.toList).getD (n - 1) []) := by
  obtain ⟨hcovers, hleast⟩ := coveringLines_spec text
  have hword : ∀ w ∈ summaryWords text, ∃ n ∈ nonblankLines text (coveringLines text),
      w ∈ splitWords ((splitLines text.toList).getD (n - 1) []) := fun w hw =>
    exists_mem_nonblankLines (hcovers.subset hw)
  refine ⟨coveringLines text, hcovers, hleast, ?_, nonblankLines_pairwise _, hword⟩
  have hne : nonblankLines text (coveringLines text) ≠ [] := by
    have hwords : splitWords text.toList ≠ [] := by
      intro hnil
      obtain ⟨c, hc, hspace⟩ := htext
      simp [splitWords_eq_nil.mp hnil c hc] at hspace
    obtain ⟨w, ws, hw⟩ := List.exists_cons_of_ne_nil hwords
    obtain ⟨n, hn, -⟩ := hword w (by simp [summaryWords, summaryWordLimit, hw])
    exact List.ne_nil_of_mem hn
  rw [groundedCitations, citeLines_splitLines h hsize, except_ok_bind, if_neg (by simpa using hne)]
  rfl

/-- Two lines with words around a blank one. -/
theorem grounded_citations_sample : ∃ count, Covers "uno dos\n\ntres" count ∧
    groundedCitations .ascii "notes.txt" "uno dos\n\ntres" =
      .ok ((nonblankLines "uno dos\n\ntres" count).map fun n => "notes.txt" ++ ":" ++ toString n) := by
  have hbreaks : "notes.txt".toList.any isLineBreak = false := by decide
  have hplain : PlainFilename "notes.txt" := ⟨by decide, by decide, by decide, by simpa using hbreaks⟩
  obtain ⟨count, hcovers, -, hcited, -⟩ := @grounded_citations_exact .ascii "notes.txt" "uno dos\n\ntres"
    hplain ⟨'u', by decide, by decide⟩ (by decide)
  exact ⟨count, hcovers, hcited⟩

end DocumentService

end PersonalAssistant
