import PersonalAssistant.Lib.Text

/-!
# Lines and words

The host's `str.splitlines` and `str.split`. Every line break is blank, so the words of a text are the
words of its lines, one line after the other.
-/
namespace Lib

/-- A character that ends a line. -/
def isLineBreak (c : Char) : Bool :=
  let n := c.toNat
  (10 ≤ n && n ≤ 13) || (0x1C ≤ n && n ≤ 0x1E) || n == 0x85 || n == 0x2028 || n == 0x2029

/-- The rest of the lines, behind the characters of the current one, latest first. A line feed right
behind a carriage return belongs to the same break. -/
def linesFrom (afterReturn : Bool) (current : List Char) : List Char → List (List Char)
  | [] => if current = [] then [] else [current.reverse]
  | c :: cs =>
    if afterReturn && c == '\n' then linesFrom false current cs
    else if isLineBreak c then current.reverse :: linesFrom (c == '\r') [] cs
    else linesFrom false (c :: current) cs

/-- `text.splitlines()`. -/
def splitLines (text : List Char) : List (List Char) := linesFrom false [] text

/-- `text.split()`. -/
def splitWords (text : List Char) : List (List Char) := (text.splitOnP isSpace).filter (· ≠ [])

theorem isSpace_of_isLineBreak {c : Char} (h : isLineBreak c = true) : isSpace c = true := by
  simp only [isLineBreak, isSpace, isWhiteSpace, Bool.or_eq_true, Bool.and_eq_true, decide_eq_true_eq,
    beq_iff_eq] at *
  omega

@[simp] theorem splitWords_nil : splitWords [] = [] := rfl

theorem splitWords_cons_of_isSpace {c : Char} (h : isSpace c = true) (cs : List Char) :
    splitWords (c :: cs) = splitWords cs := by
  simp [splitWords, List.splitOnP_cons_eq_if_modifyHead, h]

/-- A blank character separates the words on its two sides. -/
theorem splitWords_append {c : Char} (h : isSpace c = true) (pre post : List Char) :
    splitWords (pre ++ c :: post) = splitWords pre ++ splitWords post := by
  simp [splitWords, List.splitOnP_append_cons pre post h]

theorem splitWords_linesFrom {afterReturn : Bool} {current : List Char}
    (h : afterReturn = true → current = []) (text : List Char) :
    (linesFrom afterReturn current text).flatMap splitWords = splitWords (current.reverse ++ text) := by
  induction text generalizing afterReturn current with
  | nil =>
    unfold linesFrom
    split_ifs with hcurrent
    · simp [hcurrent]
    · simp
  | cons c cs ih =>
    unfold linesFrom
    split_ifs with hreturn hbreak
    · obtain ⟨hr, hc⟩ := Bool.and_eq_true_iff.mp hreturn
      obtain rfl := h hr
      rw [ih (by simp), beq_iff_eq.mp hc]
      exact (splitWords_cons_of_isSpace (by decide) cs).symm
    · rw [List.flatMap_cons, ih fun _ => rfl, splitWords_append (isSpace_of_isLineBreak hbreak)]
      rfl
    · rw [ih (by simp)]
      simp

/-- The words of a text are the words of its lines. -/
theorem flatMap_splitWords_splitLines (text : List Char) :
    (splitLines text).flatMap splitWords = splitWords text := splitWords_linesFrom (by simp) text

theorem length_linesFrom_le (afterReturn : Bool) (current text : List Char) :
    (linesFrom afterReturn current text).length ≤ text.length + 1 := by
  induction text generalizing afterReturn current with
  | nil =>
    unfold linesFrom
    split_ifs <;> simp
  | cons c cs ih =>
    unfold linesFrom
    split_ifs
    · exact (ih _ _).trans (by simp)
    · simpa using ih _ _
    · exact (ih _ _).trans (by simp)

theorem length_splitLines_le (text : List Char) : (splitLines text).length ≤ text.length + 1 :=
  length_linesFrom_le _ _ _

/-- A text without words is blank. -/
theorem splitWords_eq_nil {text : List Char} : splitWords text = [] ↔ ∀ c ∈ text, isSpace c = true := by
  induction text with
  | nil => simp
  | cons c cs ih =>
    cases hc : isSpace c with
    | true => simpa [splitWords_cons_of_isSpace hc, hc] using ih
    | false =>
      obtain ⟨w, ws, hw⟩ := List.exists_cons_of_ne_nil (List.splitOnP_ne_nil isSpace cs)
      simp [splitWords, List.splitOnP_cons_eq_if_modifyHead, hc, hw]

end Lib
