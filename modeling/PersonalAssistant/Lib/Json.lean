import Mathlib.Data.List.Basic

/-!
# Compact JSON text

Documents are written with separators `,` and `:` and no white space. The members of an object are
listed in key order by whoever builds the document, so equal documents have equal member lists.

The encoding is parametric in how a character inside a string literal is escaped. Whenever the escapes
form a prefix code that never produces a bare quote (`PrefixCode`), the text determines the document:
`Json.dumps_injective`.
-/
namespace Lib

/-- The literal text of a JSON number. -/
structure JsonNumber where
  text : String
  nonempty : text ≠ ""
  chars : ∀ c ∈ text.toList, c.isDigit ∨ c ∈ ['-', '+', '.', 'e', 'E']
deriving DecidableEq

inductive Json where
  | null
  | bool (b : Bool)
  | num (n : JsonNumber)
  | str (s : String)
  | arr (items : List Json)
  | obj (members : List (String × Json))

/-- The escapes of a string literal can be read back one character at a time. -/
structure PrefixCode (esc : Char → List Char) : Prop where
  inj : ∀ c d r r', esc c ++ r = esc d ++ r' → c = d ∧ r = r'
  quote : ∀ c r r', esc c ++ r ≠ '"' :: r'

namespace Json

variable (esc : Char → List Char)

/-- The rest of a string literal after its opening quote. -/
def literal : List Char → List Char
  | [] => ['"']
  | c :: cs => esc c ++ literal cs

mutual

def encode : Json → List Char
  | .null => ['n', 'u', 'l', 'l']
  | .bool true => ['t', 'r', 'u', 'e']
  | .bool false => ['f', 'a', 'l', 's', 'e']
  | .num n => n.text.toList
  | .str s => '"' :: literal esc s.toList
  | .arr [] => ['[', ']']
  | .arr (x :: xs) => '[' :: (encode x ++ encodeItems xs)
  | .obj [] => ['{', '}']
  | .obj ((k, v) :: ms) => '{' :: '"' :: (literal esc k.toList ++ ':' :: (encode v ++ encodeMembers ms))

/-- Items after the first, with the closing bracket. -/
def encodeItems : List Json → List Char
  | [] => [']']
  | x :: xs => ',' :: (encode x ++ encodeItems xs)

/-- Members after the first, with the closing brace. -/
def encodeMembers : List (String × Json) → List Char
  | [] => ['}']
  | (k, v) :: ms => ',' :: '"' :: (literal esc k.toList ++ ':' :: (encode v ++ encodeMembers ms))

end

def dumps (j : Json) : String := String.ofList (encode esc j)

/-! ## The text determines the document -/

/-- A character that can occur in a number. -/
def IsNumChar (c : Char) : Prop := c.isDigit ∨ c ∈ ['-', '+', '.', 'e', 'E']

/-- What may follow a complete value: nothing, or a character no number contains. -/
def Ends (r : List Char) : Prop := ∀ c ∈ r.head?, ¬ IsNumChar c

theorem ends_cons {c : Char} {r : List Char} (h : ¬ IsNumChar c) : Ends (c :: r) := by
  intro d hd
  simp only [List.head?_cons, Option.mem_some_iff] at hd
  exact hd ▸ h

theorem ends_nil : Ends [] := by simp [Ends]

theorem append_inj_of_ends {xs ys r r' : List Char} (hx : ∀ c ∈ xs, IsNumChar c)
    (hy : ∀ c ∈ ys, IsNumChar c) (hr : Ends r) (hr' : Ends r') (h : xs ++ r = ys ++ r') :
    xs = ys ∧ r = r' := by
  induction xs generalizing ys with
  | nil =>
    cases ys with
    | nil => exact ⟨rfl, h⟩
    | cons y ys => exact absurd (hy y (by simp)) (hr y (by rw [List.nil_append] at h; simp [h]))
  | cons x xs ih =>
    cases ys with
    | nil => exact absurd (hx x (by simp)) (hr' x (by rw [List.nil_append] at h; simp [← h]))
    | cons y ys =>
      simp only [List.cons_append, List.cons.injEq] at h
      obtain ⟨rfl, rfl⟩ := ih (fun c hc => hx c (by simp [hc])) (fun c hc => hy c (by simp [hc])) h.2
      exact ⟨by rw [h.1], rfl⟩

variable {esc : Char → List Char}

theorem literal_inj (code : PrefixCode esc) {cs ds r r' : List Char}
    (h : literal esc cs ++ r = literal esc ds ++ r') : cs = ds ∧ r = r' := by
  induction cs generalizing ds with
  | nil =>
    cases ds with
    | nil => simpa [literal] using h
    | cons d ds => exact absurd (by simpa [literal] using h.symm) (code.quote d _ _)
  | cons c cs ih =>
    cases ds with
    | nil => exact absurd (by simpa [literal] using h) (code.quote c _ _)
    | cons d ds =>
      simp only [literal, List.append_assoc] at h
      obtain ⟨rfl, h'⟩ := code.inj c d _ _ h
      obtain ⟨rfl, rfl⟩ := ih h'
      exact ⟨rfl, rfl⟩

/-- The first character of a value tells its kind; in particular it is no closing bracket. -/
def kind : Json → Char
  | .null => 'n'
  | .bool true => 't'
  | .bool false => 'f'
  | .num _ => '0'
  | .str _ => '"'
  | .arr _ => '['
  | .obj _ => '{'

theorem number_cons (n : JsonNumber) : ∃ c r, n.text.toList = c :: r ∧ IsNumChar c := by
  cases h : n.text.toList with
  | nil => exact absurd (String.toList_inj.mp (h.trans (by rfl : [] = "".toList))) n.nonempty
  | cons c r => exact ⟨c, r, rfl, n.chars c (by simp [h])⟩

theorem not_isNumChar : ¬ IsNumChar 'n' ∧ ¬ IsNumChar 't' ∧ ¬ IsNumChar 'f' ∧ ¬ IsNumChar '"' ∧
    ¬ IsNumChar '[' ∧ ¬ IsNumChar '{' ∧ ¬ IsNumChar ']' ∧ ¬ IsNumChar '}' ∧ ¬ IsNumChar ',' := by
  unfold IsNumChar; decide

/-- Every value starts with its kind, numbers with one of their characters. -/
theorem encode_cons (esc : Char → List Char) (j : Json) : ∃ c r, encode esc j = c :: r ∧
    ((c = kind j ∧ ¬ IsNumChar c) ∨ ((∃ n, j = .num n) ∧ IsNumChar c)) := by
  obtain ⟨hn, ht, hf, hq, ha, ho, -⟩ := not_isNumChar
  cases j with
  | null => exact ⟨_, _, rfl, .inl ⟨rfl, hn⟩⟩
  | bool b =>
    cases b
    · exact ⟨_, _, rfl, .inl ⟨rfl, hf⟩⟩
    · exact ⟨_, _, rfl, .inl ⟨rfl, ht⟩⟩
  | num n =>
    obtain ⟨c, r, h, hc⟩ := number_cons n
    exact ⟨c, r, by rw [encode, h], .inr ⟨⟨n, rfl⟩, hc⟩⟩
  | str s => exact ⟨'"', _, by rw [encode], .inl ⟨rfl, hq⟩⟩
  | arr xs => cases xs <;> exact ⟨'[', _, by rw [encode], .inl ⟨rfl, ha⟩⟩
  | obj ms => rcases ms with _ | ⟨⟨k, v⟩, ms⟩ <;> exact ⟨'{', _, by rw [encode], .inl ⟨rfl, ho⟩⟩

theorem kind_eq_of_encode {a b : Json} {r r' : List Char}
    (h : encode esc a ++ r = encode esc b ++ r') : kind a = kind b := by
  obtain ⟨c, t, ha, hc⟩ := encode_cons esc a
  obtain ⟨d, u, hb, hd⟩ := encode_cons esc b
  rw [ha, hb, List.cons_append, List.cons_append, List.cons.injEq] at h
  obtain ⟨rfl, -⟩ := h
  rcases hc with ⟨hc, hn⟩ | ⟨⟨n, rfl⟩, hn⟩ <;> rcases hd with ⟨hd, hn'⟩ | ⟨⟨m, rfl⟩, hn'⟩
  · exact hc.symm.trans hd
  · exact absurd hn' hn
  · exact absurd hn hn'
  · rfl

theorem encode_ne_close (j : Json) {c : Char} (hc : c = ']' ∨ c = '}') (r r' : List Char) :
    encode esc j ++ r ≠ c :: r' := by
  intro h
  obtain ⟨d, t, hd, hk⟩ := encode_cons esc j
  obtain ⟨-, -, -, -, -, -, hb, hB, -⟩ := not_isNumChar
  rw [hd, List.cons_append, List.cons.injEq] at h
  obtain ⟨rfl, -⟩ := h
  rcases hk with ⟨hk, -⟩ | ⟨-, hn⟩
  · rcases hc with rfl | rfl <;> (cases j with
      | bool b => cases b <;> simp [kind] at hk
      | _ => simp [kind] at hk)
  · rcases hc with rfl | rfl
    · exact hb hn
    · exact hB hn

theorem ends_items (xs : List Json) (r : List Char) : Ends (encodeItems esc xs ++ r) := by
  obtain ⟨-, -, -, -, -, -, hb, -, hc⟩ := not_isNumChar
  cases xs with
  | nil => rw [encodeItems]; exact ends_cons hb
  | cons x xs => rw [encodeItems]; exact ends_cons hc

theorem ends_members (ms : List (String × Json)) (r : List Char) :
    Ends (encodeMembers esc ms ++ r) := by
  obtain ⟨-, -, -, -, -, -, -, hb, hc⟩ := not_isNumChar
  rcases ms with _ | ⟨⟨k, v⟩, ms⟩
  · rw [encodeMembers]; exact ends_cons hb
  · rw [encodeMembers]; exact ends_cons hc

mutual

/-- Two texts that start with a value and then end it hold the same value and the same rest. -/
theorem encode_inj (code : PrefixCode esc) : ∀ (a b : Json) (r r' : List Char), Ends r → Ends r' →
    encode esc a ++ r = encode esc b ++ r' → a = b ∧ r = r'
  | .null, b, r, r', _, _, h => by
    have hk := kind_eq_of_encode h
    cases b with
    | null => simpa [encode] using h
    | bool c => cases c <;> simp [kind] at hk
    | _ => simp [kind] at hk
  | .bool c, b, r, r', _, _, h => by
    have hk := kind_eq_of_encode h
    cases b with
    | bool d => cases c <;> cases d <;> simp [kind] at hk <;> simpa [encode] using h
    | _ => cases c <;> simp [kind] at hk
  | .num n, b, r, r', hr, hr', h => by
    have hk := kind_eq_of_encode h
    cases b with
    | num m =>
      simp only [encode] at h
      obtain ⟨ht, rfl⟩ := append_inj_of_ends n.chars m.chars hr hr' h
      have : n = m := by
        obtain ⟨t, _, _⟩ := n; obtain ⟨u, _, _⟩ := m
        simp only [JsonNumber.mk.injEq]
        exact String.toList_inj.mp ht
      exact ⟨by rw [this], rfl⟩
    | bool c => cases c <;> simp [kind] at hk
    | _ => simp [kind] at hk
  | .str s, b, r, r', _, _, h => by
    have hk := kind_eq_of_encode h
    cases b with
    | str t =>
      simp only [encode, List.cons_append, List.cons.injEq, true_and] at h
      obtain ⟨hs, rfl⟩ := literal_inj code h
      exact ⟨by rw [String.toList_inj.mp hs], rfl⟩
    | bool c => cases c <;> simp [kind] at hk
    | _ => simp [kind] at hk
  | .arr [], b, r, r', _, _, h => by
    have hk := kind_eq_of_encode h
    cases b with
    | arr ys =>
      cases ys with
      | nil => simpa [encode] using h
      | cons y ys =>
        simp only [encode, List.cons_append, List.cons.injEq, true_and, List.nil_append,
          List.append_assoc] at h
        exact absurd h.symm (encode_ne_close y (.inl rfl) _ _)
    | bool c => cases c <;> simp [kind] at hk
    | _ => simp [kind] at hk
  | .arr (x :: xs), b, r, r', _, _, h => by
    have hk := kind_eq_of_encode h
    cases b with
    | arr ys =>
      cases ys with
      | nil =>
        simp only [encode, List.cons_append, List.cons.injEq, true_and, List.nil_append,
          List.append_assoc] at h
        exact absurd h (encode_ne_close x (.inl rfl) _ _)
      | cons y ys =>
        simp only [encode, List.cons_append, List.cons.injEq, true_and, List.append_assoc] at h
        obtain ⟨rfl, h'⟩ := encode_inj code x y _ _ (ends_items xs r) (ends_items ys r') h
        obtain ⟨rfl, rfl⟩ := encodeItems_inj code xs ys r r' h'
        exact ⟨rfl, rfl⟩
    | bool c => cases c <;> simp [kind] at hk
    | _ => simp [kind] at hk
  | .obj [], b, r, r', _, _, h => by
    have hk := kind_eq_of_encode h
    cases b with
    | obj ms =>
      rcases ms with _ | ⟨⟨k, v⟩, ms⟩
      · simpa [encode] using h
      · simp [encode] at h
    | bool c => cases c <;> simp [kind] at hk
    | _ => simp [kind] at hk
  | .obj ((k, v) :: ms), b, r, r', _, _, h => by
    have hk := kind_eq_of_encode h
    cases b with
    | obj ns =>
      rcases ns with _ | ⟨⟨l, w⟩, ns⟩
      · simp [encode] at h
      · simp only [encode, List.cons_append, List.cons.injEq, true_and, List.append_assoc] at h
        obtain ⟨hl, h'⟩ := literal_inj code h
        simp only [List.cons.injEq, true_and] at h'
        obtain ⟨rfl, h''⟩ := encode_inj code v w _ _ (ends_members ms r) (ends_members ns r') h'
        obtain ⟨rfl, rfl⟩ := encodeMembers_inj code ms ns r r' h''
        exact ⟨by rw [String.toList_inj.mp hl], rfl⟩
    | bool c => cases c <;> simp [kind] at hk
    | _ => simp [kind] at hk

theorem encodeItems_inj (code : PrefixCode esc) : ∀ (xs ys : List Json) (r r' : List Char),
    encodeItems esc xs ++ r = encodeItems esc ys ++ r' → xs = ys ∧ r = r'
  | [], [], r, r', h => by simpa [encodeItems] using h
  | [], y :: ys, r, r', h => by simp [encodeItems] at h
  | x :: xs, [], r, r', h => by simp [encodeItems] at h
  | x :: xs, y :: ys, r, r', h => by
    simp only [encodeItems, List.cons_append, List.cons.injEq, true_and, List.append_assoc] at h
    obtain ⟨rfl, h'⟩ := encode_inj code x y _ _ (ends_items xs r) (ends_items ys r') h
    obtain ⟨rfl, rfl⟩ := encodeItems_inj code xs ys r r' h'
    exact ⟨rfl, rfl⟩

theorem encodeMembers_inj (code : PrefixCode esc) :
    ∀ (ms ns : List (String × Json)) (r r' : List Char),
      encodeMembers esc ms ++ r = encodeMembers esc ns ++ r' → ms = ns ∧ r = r'
  | [], [], r, r', h => by simpa [encodeMembers] using h
  | [], (l, w) :: ns, r, r', h => by simp [encodeMembers] at h
  | (k, v) :: ms, [], r, r', h => by simp [encodeMembers] at h
  | (k, v) :: ms, (l, w) :: ns, r, r', h => by
    simp only [encodeMembers, List.cons_append, List.cons.injEq, true_and, List.append_assoc] at h
    obtain ⟨hl, h'⟩ := literal_inj code h
    simp only [List.cons.injEq, true_and] at h'
    obtain ⟨rfl, h''⟩ := encode_inj code v w _ _ (ends_members ms r) (ends_members ns r') h'
    obtain ⟨rfl, rfl⟩ := encodeMembers_inj code ms ns r r' h''
    exact ⟨by rw [String.toList_inj.mp hl], rfl⟩

end

theorem dumps_injective (code : PrefixCode esc) : Function.Injective (dumps esc) := by
  intro a b h
  have h' : encode esc a ++ [] = encode esc b ++ [] := by
    simpa [dumps] using congrArg String.toList h
  exact (encode_inj code a b [] [] ends_nil ends_nil h').1

/-! ## The two escapings of the host's encoder -/

def hexDigit (n : Nat) : Char := Char.ofNat (if n < 10 then 48 + n else 87 + n)

def hexValue (c : Char) : Nat := if c.toNat < 58 then c.toNat - 48 else c.toNat - 87

/-- A four-digit escape, written from its digits. -/
def unicodeEscape (n : Nat) : List Char :=
  ['\\', 'u', hexDigit (n / 4096 % 16), hexDigit (n / 256 % 16), hexDigit (n / 16 % 16),
    hexDigit (n % 16)]

/-- The characters with a two-character escape. -/
def shortEscape (c : Char) : Option Char :=
  if c = '"' then some '"'
  else if c = '\\' then some '\\'
  else if c = '\n' then some 'n'
  else if c = '\r' then some 'r'
  else if c = '\t' then some 't'
  else if c = '\x0c' then some 'f'
  else if c = '\x08' then some 'b'
  else none

/-- `ensure_ascii=True`: printable ASCII stays, other code points become one or two escapes. -/
def escapeAscii (c : Char) : List Char :=
  match shortEscape c with
  | some d => ['\\', d]
  | none =>
    if 32 ≤ c.toNat ∧ c.toNat ≤ 126 then [c]
    else if c.toNat < 0x10000 then unicodeEscape c.toNat
    else unicodeEscape (0xD800 + (c.toNat - 0x10000) / 1024) ++
      unicodeEscape (0xDC00 + (c.toNat - 0x10000) % 1024)

/-- `ensure_ascii=False`: only control characters are escaped. -/
def escapeControl (c : Char) : List Char :=
  match shortEscape c with
  | some d => ['\\', d]
  | none => if c.toNat < 32 then unicodeEscape c.toNat else [c]

def hexValue4 (a b c d : Char) : Nat :=
  4096 * hexValue a + 256 * hexValue b + 16 * hexValue c + hexValue d

def longEscape (d : Char) : Char :=
  if d = 'n' then '\n'
  else if d = 'r' then '\r'
  else if d = 't' then '\t'
  else if d = 'f' then '\x0c'
  else if d = 'b' then '\x08'
  else d

/-- Read one escaped character back. -/
def readChar : List Char → Option (Char × List Char)
  | '\\' :: 'u' :: a :: b :: c :: d :: r =>
    let n := hexValue4 a b c d
    if 0xD800 ≤ n ∧ n < 0xDC00 then
      match r with
      | _ :: _ :: a' :: b' :: c' :: d' :: r' =>
        some (Char.ofNat (0x10000 + (n - 0xD800) * 1024 + (hexValue4 a' b' c' d' - 0xDC00)), r')
      | _ => none
    else some (Char.ofNat n, r)
  | '\\' :: d :: r => some (longEscape d, r)
  | c :: r => some (c, r)
  | [] => none

theorem hexValue_hexDigit {n : Nat} (h : n < 16) : hexValue (hexDigit n) = n := by
  revert n; decide

theorem hexValue4_hexDigits {n : Nat} (h : n < 65536) :
    hexValue4 (hexDigit (n / 4096 % 16)) (hexDigit (n / 256 % 16)) (hexDigit (n / 16 % 16))
      (hexDigit (n % 16)) = n := by
  simp only [hexValue4]
  rw [hexValue_hexDigit (by omega), hexValue_hexDigit (by omega), hexValue_hexDigit (by omega),
    hexValue_hexDigit (by omega)]
  omega

theorem toNat_not_surrogate (c : Char) : ¬ (0xD800 ≤ c.toNat ∧ c.toNat < 0xE000) := by
  have h := c.valid
  simp only [UInt32.isValidChar, Nat.isValidChar] at h
  change ¬ (0xD800 ≤ c.val.toNat ∧ c.val.toNat < 0xE000)
  omega

theorem toNat_lt (c : Char) : c.toNat < 0x110000 := by
  have h := c.valid
  simp only [UInt32.isValidChar, Nat.isValidChar] at h
  change c.val.toNat < 0x110000
  omega

theorem readChar_unicodeEscape {n : Nat} (h : n < 65536) (hs : ¬ (0xD800 ≤ n ∧ n < 0xDC00))
    (r : List Char) : readChar (unicodeEscape n ++ r) = some (Char.ofNat n, r) := by
  simp only [unicodeEscape, List.cons_append, List.nil_append, readChar, hexValue4_hexDigits h, hs,
    if_false]

theorem readChar_surrogates {m n : Nat} (hm : 0xD800 ≤ m ∧ m < 0xDC00) (hn : n < 65536)
    (r : List Char) : readChar (unicodeEscape m ++ unicodeEscape n ++ r) =
      some (Char.ofNat (0x10000 + (m - 0xD800) * 1024 + (n - 0xDC00)), r) := by
  simp only [unicodeEscape, List.cons_append, List.nil_append, readChar,
    hexValue4_hexDigits (show m < 65536 by omega), hexValue4_hexDigits hn, hm, and_self, if_true]

theorem readChar_short {c d : Char} (h : shortEscape c = some d) (r : List Char) :
    readChar ('\\' :: d :: r) = some (c, r) := by
  unfold shortEscape at h
  split_ifs at h <;> (cases h; subst_vars; simp [readChar, longEscape])

theorem ne_backslash {c : Char} (h : shortEscape c = none) : c ≠ '\\' := by
  rintro rfl; revert h; decide

theorem ne_quote {c : Char} (h : shortEscape c = none) : c ≠ '"' := by
  rintro rfl; revert h; decide

theorem readChar_self {c : Char} (h : shortEscape c = none) (r : List Char) :
    readChar (c :: r) = some (c, r) := by
  have := ne_backslash h
  unfold readChar
  split <;> simp_all

theorem readChar_escapeAscii (c : Char) (r : List Char) :
    readChar (escapeAscii c ++ r) = some (c, r) := by
  unfold escapeAscii
  have hs := toNat_not_surrogate c
  have hl := toNat_lt c
  cases h : shortEscape c with
  | some d => exact readChar_short h r
  | none =>
    simp only
    split_ifs with h₁ h₂
    · exact readChar_self h r
    · rw [readChar_unicodeEscape h₂ (by omega), Char.ofNat_toNat]
    · rw [readChar_surrogates (by omega) (by omega)]
      have : 0x10000 + (0xD800 + (c.toNat - 0x10000) / 1024 - 0xD800) * 1024 +
          (0xDC00 + (c.toNat - 0x10000) % 1024 - 0xDC00) = c.toNat := by omega
      rw [this, Char.ofNat_toNat]

theorem readChar_escapeControl (c : Char) (r : List Char) :
    readChar (escapeControl c ++ r) = some (c, r) := by
  unfold escapeControl
  cases h : shortEscape c with
  | some d => exact readChar_short h r
  | none =>
    simp only
    split_ifs with h₁
    · rw [readChar_unicodeEscape (by omega) (by omega), Char.ofNat_toNat]
    · exact readChar_self h r

theorem prefixCode_of_readChar (hread : ∀ c r, readChar (esc c ++ r) = some (c, r))
    (hquote : ∀ c r r', esc c ++ r ≠ '"' :: r') : PrefixCode esc where
  inj c d r r' h := by
    have := congrArg readChar h
    rw [hread, hread] at this
    simpa using this
  quote := hquote

theorem prefixCode_escapeAscii : PrefixCode escapeAscii := by
  refine prefixCode_of_readChar readChar_escapeAscii fun c r r' h => ?_
  unfold escapeAscii at h
  cases hc : shortEscape c with
  | some d => simp [hc] at h
  | none =>
    have := ne_quote hc
    simp only [hc] at h
    split_ifs at h <;> simp_all [unicodeEscape]

theorem prefixCode_escapeControl : PrefixCode escapeControl := by
  refine prefixCode_of_readChar readChar_escapeControl fun c r r' h => ?_
  unfold escapeControl at h
  cases hc : shortEscape c with
  | some d => simp [hc] at h
  | none =>
    have := ne_quote hc
    simp only [hc] at h
    split_ifs at h <;> simp_all [unicodeEscape]

end Json

end Lib
