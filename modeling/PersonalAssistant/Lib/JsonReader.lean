import PersonalAssistant.Lib.Json

/-!
# Reading JSON text

A reader for JSON documents, with optional white space between tokens. Its fuel bounds the nesting and the
length; the length of the text is enough. Reading what `Json.dumps` wrote gives the document back.
-/
namespace Lib

namespace Json

def isBlank (c : Char) : Bool := c == ' ' || c == '\t' || c == '\n' || c == '\r'

def skipBlank (cs : List Char) : List Char := cs.dropWhile isBlank

/-- The rest of a string literal behind its opening quote. -/
def readLiteral : Nat → List Char → Option (List Char × List Char)
  | 0, _ => none
  | fuel + 1, cs =>
    if cs.head? = some '"' then some ([], cs.tail)
    else do
      let (c, cs) ← readChar cs
      let (literal, cs) ← readLiteral fuel cs
      return (c :: literal, cs)

def isNumChar (c : Char) : Bool := decide (c.isDigit ∨ c ∈ ['-', '+', '.', 'e', 'E'])

/-- The longest number in front. -/
def readNumber (cs : List Char) : Option (Json × List Char) :=
  if h : cs.takeWhile isNumChar ≠ [] then
    some (.num {
      text := String.ofList (cs.takeWhile isNumChar)
      nonempty := fun he => h (by simpa using congrArg String.toList he)
      chars := fun c hc => of_decide_eq_true (List.all_eq_true.mp List.all_takeWhile c (by simpa using hc)) },
      cs.dropWhile isNumChar)
  else none

/-- A punctuation character, behind optional white space. -/
def expect (c : Char) (cs : List Char) : Option (List Char) :=
  match skipBlank cs with
  | [] => none
  | d :: rest => if d = c then some rest else none

/-- The member name of an object and the colon behind it. -/
def readName (fuel : Nat) (cs : List Char) : Option (String × List Char) := do
  let (name, cs) ← readLiteral fuel (← expect '"' cs)
  return (String.ofList name, ← expect ':' cs)

mutual

def readValue : Nat → List Char → Option (Json × List Char)
  | 0, _ => none
  | fuel + 1, cs =>
    match skipBlank cs with
    | [] => none
    | c :: rest =>
      if c = '"' then do
        let (text, rest) ← readLiteral fuel rest
        return (.str (String.ofList text), rest)
      else if c = '[' then
        match expect ']' rest with
        | some rest => some (.arr [], rest)
        | none => do
          let (item, rest) ← readValue fuel rest
          let (items, rest) ← readItems fuel rest
          return (.arr (item :: items), rest)
      else if c = '{' then
        match expect '}' rest with
        | some rest => some (.obj [], rest)
        | none => do
          let (name, rest) ← readName fuel rest
          let (value, rest) ← readValue fuel rest
          let (members, rest) ← readMembers fuel rest
          return (.obj ((name, value) :: members), rest)
      else if ['n', 'u', 'l', 'l'] <+: c :: rest then some (.null, rest.drop 3)
      else if ['t', 'r', 'u', 'e'] <+: c :: rest then some (.bool true, rest.drop 3)
      else if ['f', 'a', 'l', 's', 'e'] <+: c :: rest then some (.bool false, rest.drop 4)
      else readNumber (c :: rest)

/-- The items behind the first, and the closing bracket. -/
def readItems : Nat → List Char → Option (List Json × List Char)
  | 0, _ => none
  | fuel + 1, cs =>
    match expect ']' cs with
    | some rest => some ([], rest)
    | none => do
      let (item, rest) ← readValue fuel (← expect ',' cs)
      let (items, rest) ← readItems fuel rest
      return (item :: items, rest)

/-- The members behind the first, and the closing brace. -/
def readMembers : Nat → List Char → Option (List (String × Json) × List Char)
  | 0, _ => none
  | fuel + 1, cs =>
    match expect '}' cs with
    | some rest => some ([], rest)
    | none => do
      let (name, rest) ← readName fuel (← expect ',' cs)
      let (value, rest) ← readValue fuel rest
      let (members, rest) ← readMembers fuel rest
      return ((name, value) :: members, rest)

end

/-- `json.loads`, for a document that repeats no member name. -/
def loads (text : String) : Option Json := do
  let (value, rest) ← readValue (text.length + 1) text.toList
  if skipBlank rest = [] then return value else none

/-! ## Reading what was written -/

/-- Escapes that are read back, and are no closing quote. -/
structure Readable (esc : Char → List Char) : Prop where
  read : ∀ c r, readChar (esc c ++ r) = some (c, r)
  quote : ∀ c r r', esc c ++ r ≠ '"' :: r'

theorem readable_escapeAscii : Readable escapeAscii := ⟨readChar_escapeAscii, prefixCode_escapeAscii.quote⟩

variable {esc : Char → List Char}

theorem Readable.length_pos (h : Readable esc) (c : Char) : 0 < (esc c).length := by
  rw [List.length_pos_iff]
  intro hnil
  have := h.read c []
  simp [hnil, readChar] at this

theorem readLiteral_literal (h : Readable esc) {cs r : List Char} {fuel : Nat}
    (hfuel : (literal esc cs).length ≤ fuel) : readLiteral fuel (literal esc cs ++ r) = some (cs, r) := by
  induction cs generalizing fuel with
  | nil =>
    obtain ⟨fuel, rfl⟩ := Nat.exists_eq_succ_of_ne_zero (Nat.pos_iff_ne_zero.mp hfuel)
    simp [literal, readLiteral]
  | cons c cs ih =>
    have hpos := h.length_pos c
    simp only [literal, List.length_append] at hfuel
    obtain ⟨fuel, rfl⟩ := Nat.exists_eq_succ_of_ne_zero (by omega : fuel ≠ 0)
    have hhead : (literal esc (c :: cs) ++ r).head? ≠ some '"' := by
      intro hq
      obtain ⟨t, ht⟩ := List.head?_eq_some_iff.mp hq
      rw [literal, List.append_assoc] at ht
      exact h.quote c _ _ ht
    have hrest := @ih fuel (by omega)
    rw [readLiteral, if_neg hhead, literal, List.append_assoc, h.read]
    simp [hrest]

theorem skipBlank_cons {c : Char} (h : isBlank c = false) (cs : List Char) : skipBlank (c :: cs) = c :: cs :=
  List.dropWhile_cons_of_neg (by simp [h])

theorem expect_cons {c : Char} (h : isBlank c = false) (cs : List Char) : expect c (c :: cs) = some cs := by
  simp [expect, skipBlank_cons h]

theorem expect_cons_of_ne {c d : Char} (h : isBlank d = false) (hne : d ≠ c) (cs : List Char) :
    expect c (d :: cs) = none := by simp [expect, skipBlank_cons h, hne]

theorem isNumChar_iff {c : Char} : isNumChar c = true ↔ IsNumChar c := by simp [isNumChar, IsNumChar]

theorem readNumber_append (n : JsonNumber) {r : List Char} (hr : Ends r) :
    readNumber (n.text.toList ++ r) = some (.num n, r) := by
  have hall : ∀ c ∈ n.text.toList, isNumChar c = true := fun c hc => isNumChar_iff.mpr (n.chars c hc)
  have hstop : r.takeWhile isNumChar = [] ∧ r.dropWhile isNumChar = r := by
    cases r with
    | nil => exact ⟨rfl, rfl⟩
    | cons c r =>
      have hc : ¬ isNumChar c = true := mt isNumChar_iff.mp (hr c rfl)
      exact ⟨List.takeWhile_cons_of_neg hc, List.dropWhile_cons_of_neg hc⟩
  have htake : (n.text.toList ++ r).takeWhile isNumChar = n.text.toList := by
    rw [List.takeWhile_append_of_pos hall, hstop.1, List.append_nil]
  have hdrop : (n.text.toList ++ r).dropWhile isNumChar = r := by
    rw [List.dropWhile_append_of_pos hall, hstop.2]
  have hne : n.text.toList ≠ [] := fun hnil => n.nonempty (String.toList_eq_nil_iff.mp hnil)
  unfold readNumber
  simp only [htake, hdrop, dif_pos hne, String.ofList_toList]

/-- A value starts with no blank and no closing bracket. -/
theorem encode_head (j : Json) : ∃ c r, encode esc j = c :: r ∧ isBlank c = false ∧ c ≠ ']' ∧ c ≠ '}' := by
  have hnum : ∀ c, IsNumChar c → isBlank c = false ∧ c ≠ ']' ∧ c ≠ '}' := by
    rintro c (hdigit | hsign)
    · refine ⟨?_, ?_, ?_⟩
      · simp only [isBlank, Bool.or_eq_false_iff, beq_eq_false_iff_ne]
        refine ⟨⟨⟨?_, ?_⟩, ?_⟩, ?_⟩ <;> rintro rfl <;> revert hdigit <;> decide
      · rintro rfl
        revert hdigit
        decide
      · rintro rfl
        revert hdigit
        decide
    · simp only [List.mem_cons, List.not_mem_nil, or_false] at hsign
      rcases hsign with rfl | rfl | rfl | rfl | rfl <;> decide
  obtain ⟨c, r, hj, ⟨rfl, -⟩ | ⟨-, hc⟩⟩ := encode_cons esc j
  · refine ⟨_, r, hj, ?_⟩
    cases j with
    | bool b => cases b <;> decide
    | _ => simp [kind, isBlank]
  · exact ⟨c, r, hj, hnum c hc⟩

theorem expect_encode (j : Json) {c : Char} (hc : c = ']' ∨ c = '}') (r : List Char) :
    expect c (encode esc j ++ r) = none := by
  obtain ⟨d, t, hj, hblank, hb, hB⟩ := @encode_head esc j
  rw [hj, List.cons_append]
  refine expect_cons_of_ne hblank ?_ _
  rcases hc with rfl | rfl
  · exact hb
  · exact hB

theorem readName_eq (h : Readable esc) {k : String} {r : List Char} {fuel : Nat}
    (hfuel : (literal esc k.toList).length ≤ fuel) :
    readName fuel ('"' :: (literal esc k.toList ++ ':' :: r)) = some (k, r) := by
  have hquote : expect '"' ('"' :: (literal esc k.toList ++ ':' :: r)) = some (literal esc k.toList ++ ':' :: r) :=
    expect_cons (by decide) _
  have hcolon : expect ':' (':' :: r) = some r := expect_cons (by decide) _
  unfold readName
  rw [hquote, Option.bind_eq_bind, Option.bind_some, readLiteral_literal h hfuel]
  simp [hcolon]

theorem readValue_number (n : JsonNumber) {r : List Char} (hr : Ends r) (fuel : Nat) :
    readValue (fuel + 1) (n.text.toList ++ r) = some (.num n, r) := by
  obtain ⟨c, t, htext, hc⟩ := number_cons n
  obtain ⟨d, t', hd, hblank, -⟩ := @encode_head escapeAscii (.num n)
  obtain ⟨hn, ht, hf, hq, hb, hB, -⟩ := not_isNumChar
  have hne : ∀ {d}, ¬ IsNumChar d → c ≠ d := by
    rintro d hd rfl
    exact hd hc
  have hcd : c = d := by
    rw [encode, htext] at hd
    exact (List.cons.inj hd).1
  have hread := readNumber_append n hr
  rw [htext, List.cons_append] at hread ⊢
  simp [readValue, skipBlank_cons (hcd ▸ hblank), hne hq, hne hb, hne hB, (hne hn).symm, (hne ht).symm,
    (hne hf).symm, hread]

mutual

/-- Reading a value in front of a text that ends it. -/
theorem readValue_encode (h : Readable esc) : ∀ (j : Json) (fuel : Nat) (r : List Char), Ends r →
    (encode esc j).length ≤ fuel → readValue fuel (encode esc j ++ r) = some (j, r)
  | j, 0, _, _, hfuel => by
    obtain ⟨c, t, hj, -⟩ := @encode_head esc j
    simp [hj] at hfuel
  | .null, fuel + 1, r, _, _ => by simp [readValue, encode, skipBlank_cons (by decide : isBlank 'n' = false)]
  | .bool true, fuel + 1, r, _, _ => by
    simp [readValue, encode, skipBlank_cons (by decide : isBlank 't' = false)]
  | .bool false, fuel + 1, r, _, _ => by
    simp [readValue, encode, skipBlank_cons (by decide : isBlank 'f' = false)]
  | .num n, fuel + 1, r, hr, _ => by
    rw [encode]
    exact readValue_number n hr fuel
  | .str s, fuel + 1, r, _, hfuel => by
    have hread := readLiteral_literal h (r := r) (by simpa [encode] using hfuel : _ ≤ fuel)
    simp [readValue, encode, skipBlank_cons (by decide : isBlank '"' = false), hread]
  | .arr [], fuel + 1, r, _, _ => by
    simp [readValue, encode, skipBlank_cons (by decide : isBlank '[' = false),
      expect_cons (by decide : isBlank ']' = false)]
  | .arr (x :: xs), fuel + 1, r, _, hfuel => by
    simp only [encode, List.length_cons, List.length_append] at hfuel
    have hitem := readValue_encode h x fuel _ (@ends_items esc xs r) (by omega)
    have hitems := readItems_encode h xs fuel r (by omega)
    simp [readValue, encode, skipBlank_cons (by decide : isBlank '[' = false),
      expect_encode x (.inl rfl), hitem, hitems]
  | .obj [], fuel + 1, r, _, _ => by
    simp [readValue, encode, skipBlank_cons (by decide : isBlank '{' = false),
      expect_cons (by decide : isBlank '}' = false)]
  | .obj ((k, v) :: ms), fuel + 1, r, _, hfuel => by
    simp only [encode, List.length_cons, List.length_append] at hfuel
    have hname := readName_eq h (k := k) (r := encode esc v ++ (encodeMembers esc ms ++ r))
      (by omega : _ ≤ fuel)
    have hvalue := readValue_encode h v fuel _ (@ends_members esc ms r) (by omega)
    have hmembers := readMembers_encode h ms fuel r (by omega)
    simp [readValue, encode, skipBlank_cons (by decide : isBlank '{' = false),
      expect_cons_of_ne (c := '}') (by decide : isBlank '"' = false) (by decide), hname, hvalue, hmembers]

theorem readItems_encode (h : Readable esc) : ∀ (xs : List Json) (fuel : Nat) (r : List Char),
    (encodeItems esc xs).length ≤ fuel → readItems fuel (encodeItems esc xs ++ r) = some (xs, r)
  | [], 0, _, hfuel => by simp [encodeItems] at hfuel
  | x :: xs, 0, _, hfuel => by simp [encodeItems] at hfuel
  | [], fuel + 1, r, _ => by simp [readItems, encodeItems, expect_cons (by decide : isBlank ']' = false)]
  | x :: xs, fuel + 1, r, hfuel => by
    simp only [encodeItems, List.length_cons, List.length_append] at hfuel
    have hitem := readValue_encode h x fuel _ (@ends_items esc xs r) (by omega)
    have hitems := readItems_encode h xs fuel r (by omega)
    simp [readItems, encodeItems, expect_cons_of_ne (c := ']') (by decide : isBlank ',' = false) (by decide),
      expect_cons (by decide : isBlank ',' = false), hitem, hitems]

theorem readMembers_encode (h : Readable esc) : ∀ (ms : List (String × Json)) (fuel : Nat) (r : List Char),
    (encodeMembers esc ms).length ≤ fuel → readMembers fuel (encodeMembers esc ms ++ r) = some (ms, r)
  | [], 0, _, hfuel => by simp [encodeMembers] at hfuel
  | (k, v) :: ms, 0, _, hfuel => by simp [encodeMembers] at hfuel
  | [], fuel + 1, r, _ => by simp [readMembers, encodeMembers, expect_cons (by decide : isBlank '}' = false)]
  | (k, v) :: ms, fuel + 1, r, hfuel => by
    simp only [encodeMembers, List.length_cons, List.length_append] at hfuel
    have hname := readName_eq h (k := k) (r := encode esc v ++ (encodeMembers esc ms ++ r))
      (by omega : _ ≤ fuel)
    have hvalue := readValue_encode h v fuel _ (@ends_members esc ms r) (by omega)
    have hmembers := readMembers_encode h ms fuel r (by omega)
    simp [readMembers, encodeMembers, expect_cons_of_ne (c := '}') (by decide : isBlank ',' = false) (by decide),
      expect_cons (by decide : isBlank ',' = false), hname, hvalue, hmembers]

end

/-- A document is read as it was written. -/
theorem loads_dumps (h : Readable esc) (j : Json) : loads (dumps esc j) = some j := by
  have hread := readValue_encode h j ((encode esc j).length + 1) [] ends_nil (by omega)
  rw [List.append_nil] at hread
  unfold loads dumps
  rw [String.length_ofList, String.toList_ofList, hread]
  rfl

end Json

end Lib
