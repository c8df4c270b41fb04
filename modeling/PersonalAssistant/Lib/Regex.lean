import Mathlib.Data.List.Basic
import PersonalAssistant.Lib.Text

/-!
# Regular expressions with backtracking

`Regex.run` lists the ways an expression can match from a cursor, in the order in which a backtracking
matcher tries them, so the match it reports is the first of the list. Repetitions are greedy. Assertions
look at the characters on both sides of the cursor, which covers word boundaries, anchors and
one-character lookaround.
-/
namespace Lib

/-- A position in a text, with the groups captured so far, latest first. -/
structure Cursor where
  /-- The characters before the position, nearest first. -/
  before : List Char
  rest : List Char
  groups : List (Nat × List Char)
deriving DecidableEq

inductive Regex where
  | empty
  | char (p : Char → Bool)
  | assert (p : Option Char → Option Char → Bool)
  | seq (a b : Regex)
  | alt (a b : Regex)
  | star (a : Regex)
  | upTo (n : Nat) (a : Regex)
  | group (k : Nat) (a : Regex)

namespace Cursor

def ofText (text : List Char) : Cursor := ⟨[], text, []⟩

/-- The characters between two positions of a text. -/
def consumed (s t : Cursor) : List Char := s.rest.take (s.rest.length - t.rest.length)

def capture (k : Nat) (s t : Cursor) : Cursor := { t with groups := (k, s.consumed t) :: t.groups }

/-- `t` lies behind `s` in the same text, the characters `w` further. -/
structure Reads (w : List Char) (s t : Cursor) : Prop where
  rest : s.rest = w ++ t.rest
  before : t.before = w.reverse ++ s.before

theorem Reads.refl (s : Cursor) : Reads [] s s := ⟨rfl, rfl⟩

theorem Reads.trans {v w : List Char} {s t u : Cursor} (h : Reads v s t) (h' : Reads w t u) :
    Reads (v ++ w) s u :=
  ⟨by rw [h.rest, h'.rest, List.append_assoc],
    by rw [h'.before, h.before, List.reverse_append, List.append_assoc]⟩

theorem Reads.consumed {w : List Char} {s t : Cursor} (h : Reads w s t) : s.consumed t = w := by
  simp [Cursor.consumed, h.rest]

theorem Reads.text {w : List Char} {s t : Cursor} (h : Reads w s t) :
    t.before.reverse ++ t.rest = s.before.reverse ++ s.rest := by
  rw [h.before, h.rest]
  simp

end Cursor

namespace Regex

open Cursor

/-- Up to `n` further rounds, the most first. A round that reads nothing ends the repetition. -/
def iterate (f : Cursor → List Cursor) : Nat → Cursor → List Cursor
  | 0, s => [s]
  | n + 1, s => ((f s).filter fun t => t.rest.length < s.rest.length).flatMap (iterate f n) ++ [s]

def run : Regex → Cursor → List Cursor
  | empty, s => [s]
  | char p, s =>
    match s.rest with
    | [] => []
    | c :: cs => if p c then [⟨c :: s.before, cs, s.groups⟩] else []
  | assert p, s => if p s.before.head? s.rest.head? then [s] else []
  | seq a b, s => (run a s).flatMap (run b)
  | alt a b, s => run a s ++ run b s
  | star a, s => iterate (run a) s.rest.length s
  | upTo n a, s => iterate (run a) n s
  | group k a, s => (run a s).map (capture k s)

/-! ## Building expressions -/

/-- `a?`. -/
def opt (a : Regex) : Regex := upTo 1 a

/-- `a+`. -/
def plus (a : Regex) : Regex := seq a (star a)

/-- `a{n}`. -/
def times : Nat → Regex → Regex
  | 0, _ => empty
  | n + 1, a => seq a (times n a)

/-- `a{m,n}`, for `m ≤ n`. -/
def between (m n : Nat) (a : Regex) : Regex := seq (times m a) (upTo (n - m) a)

/-- One after the other. -/
def concat : List Regex → Regex
  | [] => empty
  | [a] => a
  | a :: as => seq a (concat as)

/-- The first that leads to a match. -/
def choice : List Regex → Regex
  | [] => char fun _ => false
  | [a] => a
  | a :: as => alt a (choice as)

/-- The literal character. -/
def lit (c : Char) : Regex := char fun d => d = c

/-- The literal text. -/
def text (s : String) : Regex := concat (s.toList.map lit)

/-- `\b`, for the given word characters. -/
def boundary (word : Char → Bool) : Regex := assert fun b a => b.any word != a.any word

/-- `a{n,}`. -/
def atLeast (n : Nat) (a : Regex) : Regex := seq (times n a) (star a)

/-- `(?!p)` for one character. -/
def notAhead (p : Char → Bool) : Regex := assert fun _ a => !a.any p

/-- `(?<!p)` for one character. -/
def notBehind (p : Char → Bool) : Regex := assert fun b _ => !b.any p

/-- `\Z`. -/
def atEnd : Regex := assert fun _ a => a.isNone

/-- `^`. -/
def atStart : Regex := assert fun b _ => b.isNone

/-- A lower case letter of an expression that ignores case: both cases, and the characters that fold to
it. -/
def foldsTo (letter c : Char) : Bool :=
  c == letter || c.toLower == letter ||
    (letter == 'i' && (c.toNat == 0x130 || c.toNat == 0x131)) ||
    (letter == 's' && c.toNat == 0x17F) || (letter == 'k' && c.toNat == 0x212A)

/-- `[A-Za-z]`, ignoring case. -/
def foldsToLetter (c : Char) : Bool :=
  "abcdefghijklmnopqrstuvwxyz".toList.any fun letter => foldsTo letter c

/-- The literal text, ignoring case. -/
def textFold (s : String) : Regex := concat (s.toList.map fun l => char (foldsTo l))

/-! ## Matching -/

/-- A match: where it starts and ends, what it reads, and its groups. -/
structure Match where
  start : Cursor
  stop : Cursor

namespace Match

def text (m : Match) : List Char := m.start.consumed m.stop

def startPos (m : Match) : Nat := m.start.before.length

def endPos (m : Match) : Nat := m.stop.before.length

/-- The text of a group, if the match went through it. -/
def group (m : Match) (k : Nat) : Option (List Char) := m.stop.groups.lookup k

end Match

/-- The leftmost match from a position on. -/
def searchFrom (r : Regex) (before : List Char) : List Char → Option Match
  | [] => (run r ⟨before, [], []⟩).head?.map (Match.mk ⟨before, [], []⟩)
  | c :: cs =>
    match (run r ⟨before, c :: cs, []⟩).head? with
    | some t => some ⟨⟨before, c :: cs, []⟩, t⟩
    | none => searchFrom r (c :: before) cs

def search (r : Regex) (text : String) : Option Match := searchFrom r [] text.toList

/-- The match at the start of the text. -/
def matchStart (r : Regex) (text : String) : Option Match :=
  (run r (.ofText text.toList)).head?.map (Match.mk (.ofText text.toList))

/-- Whether there is a match somewhere. -/
def occursIn (r : Regex) (text : String) : Bool := (r.search text).isSome

/-- The successive matches, each behind the one before. The expression must not match the empty text. -/
def findFrom (r : Regex) : Nat → List Char → List Char → List Match
  | 0, _, _ => []
  | fuel + 1, before, rest =>
    match searchFrom r before rest with
    | none => []
    | some m => m :: findFrom r fuel m.stop.before m.stop.rest

def findAll (r : Regex) (text : String) : List Match := findFrom r (text.length + 1) [] text.toList

/-- `sub`: every match replaced by the same text. -/
def replaceFrom (r : Regex) (by_ : List Char) : Nat → List Char → List Char → List Char
  | 0, _, rest => rest
  | fuel + 1, before, rest =>
    match searchFrom r before rest with
    | none => rest
    | some m => rest.take (rest.length - m.start.rest.length) ++ by_ ++
        replaceFrom r by_ fuel m.stop.before m.stop.rest

def replaceAll (r : Regex) (by_ text : String) : String :=
  String.ofList (replaceFrom r by_.toList (text.length + 1) [] text.toList)

/-! ## What a match reads -/

variable {r a b : Regex} {s t : Cursor}

/-- The texts an expression can read, the assertions left aside. -/
def Word : Regex → List Char → Prop
  | empty, w => w = []
  | char p, w => ∃ c, p c ∧ w = [c]
  | assert _, w => w = []
  | seq a b, w => ∃ u v, Word a u ∧ Word b v ∧ w = u ++ v
  | alt a b, w => Word a w ∨ Word b w
  | star a, w => ∃ ws : List (List Char), (∀ v ∈ ws, Word a v) ∧ w = ws.flatten
  | upTo n a, w => ∃ ws : List (List Char), ws.length ≤ n ∧ (∀ v ∈ ws, Word a v) ∧ w = ws.flatten
  | group _ a, w => Word a w

theorem reads_iterate {P : List Char → Prop} {f : Cursor → List Cursor}
    (hf : ∀ s t, t ∈ f s → ∃ w, P w ∧ Reads w s t) {n : Nat} (h : t ∈ iterate f n s) :
    ∃ ws : List (List Char), ws.length ≤ n ∧ (∀ v ∈ ws, P v) ∧ Reads ws.flatten s t := by
  induction n generalizing s with
  | zero =>
    obtain rfl := List.mem_singleton.mp h
    exact ⟨[], by simp, by simp, .refl t⟩
  | succ n ih =>
    rcases List.mem_append.mp h with h | h
    · obtain ⟨u, hu, ht⟩ := List.mem_flatMap.mp h
      obtain ⟨v, hv, hreads⟩ := hf s u (List.mem_filter.mp hu).1
      obtain ⟨ws, hlen, hws, hreads'⟩ := ih ht
      refine ⟨v :: ws, by simpa using hlen, ?_, by simpa using hreads.trans hreads'⟩
      simpa using ⟨hv, hws⟩
    · obtain rfl := List.mem_singleton.mp h
      exact ⟨[], by simp, by simp, .refl t⟩

/-- A match reads one of the texts of its expression. -/
theorem word_of_mem_run (h : t ∈ run r s) : ∃ w, Word r w ∧ Reads w s t := by
  induction r generalizing s t with
  | empty =>
    obtain rfl := List.mem_singleton.mp h
    exact ⟨[], rfl, .refl t⟩
  | char p =>
    unfold run at h
    cases hs : s.rest with
    | nil => simp [hs] at h
    | cons c cs =>
      simp only [hs] at h
      split_ifs at h with hc
      · obtain rfl := List.mem_singleton.mp h
        exact ⟨[c], ⟨c, hc, rfl⟩, by simp [hs], by simp⟩
      · cases h
  | assert p =>
    unfold run at h
    split_ifs at h
    · obtain rfl := List.mem_singleton.mp h
      exact ⟨[], rfl, .refl t⟩
    · cases h
  | seq a b iha ihb =>
    obtain ⟨u, hu, ht⟩ := List.mem_flatMap.mp h
    obtain ⟨v, hv, hreads⟩ := iha hu
    obtain ⟨w, hw, hreads'⟩ := ihb ht
    exact ⟨v ++ w, ⟨v, w, hv, hw, rfl⟩, hreads.trans hreads'⟩
  | alt a b iha ihb =>
    rcases List.mem_append.mp h with h | h
    · obtain ⟨w, hw, hreads⟩ := iha h
      exact ⟨w, .inl hw, hreads⟩
    · obtain ⟨w, hw, hreads⟩ := ihb h
      exact ⟨w, .inr hw, hreads⟩
  | star a ih =>
    obtain ⟨ws, -, hws, hreads⟩ := reads_iterate (fun _ _ => ih) h
    exact ⟨ws.flatten, ⟨ws, hws, rfl⟩, hreads⟩
  | upTo n a ih =>
    obtain ⟨ws, hlen, hws, hreads⟩ := reads_iterate (fun _ _ => ih) h
    exact ⟨ws.flatten, ⟨ws, hlen, hws, rfl⟩, hreads⟩
  | group k a ih =>
    obtain ⟨u, hu, rfl⟩ := List.mem_map.mp h
    obtain ⟨w, hw, hreads⟩ := ih hu
    exact ⟨w, hw, hreads.rest, hreads.before⟩

theorem word_star_char {p : Char → Bool} {w : List Char} (h : Word (star (char p)) w) :
    ∀ c ∈ w, p c := by
  obtain ⟨ws, hws, rfl⟩ := h
  intro c hc
  obtain ⟨v, hv, hcv⟩ := List.mem_flatten.mp hc
  obtain ⟨d, hd, rfl⟩ := hws v hv
  rwa [List.mem_singleton.mp hcv]

theorem word_times_char {p : Char → Bool} {n : Nat} {w : List Char} (h : Word (times n (char p)) w) :
    w.length = n ∧ ∀ c ∈ w, p c := by
  induction n generalizing w with
  | zero =>
    obtain rfl : w = [] := h
    simp
  | succ n ih =>
    obtain ⟨_, v, ⟨c, hc, rfl⟩, hv, rfl⟩ := h
    obtain ⟨hlen, hall⟩ := ih hv
    refine ⟨by simp [hlen], ?_⟩
    simpa using ⟨hc, hall⟩

theorem word_between_char {p : Char → Bool} {m n : Nat} {w : List Char}
    (h : Word (between m n (char p)) w) : m ≤ w.length ∧ ∀ c ∈ w, p c := by
  obtain ⟨u, v, hu, ⟨vs, -, hvs, rfl⟩, rfl⟩ := h
  obtain ⟨hlen, hall⟩ := word_times_char hu
  refine ⟨by simp [hlen], ?_⟩
  intro c hc
  rcases List.mem_append.mp hc with hc | hc
  · exact hall c hc
  · exact word_star_char ⟨vs, hvs, rfl⟩ c hc

theorem word_opt {w : List Char} (h : Word (opt a) w) : w = [] ∨ Word a w := by
  obtain ⟨ws, hlen, hws, rfl⟩ := h
  match ws, hlen with
  | [], _ => exact .inl rfl
  | [v], _ => exact .inr (by simpa using hws v (by simp))

/-! ## Groups -/

/-- The expressions of a group. -/
def bodies (k : Nat) : Regex → List Regex
  | empty => []
  | char _ => []
  | assert _ => []
  | seq a b => bodies k a ++ bodies k b
  | alt a b => bodies k a ++ bodies k b
  | star a => bodies k a
  | upTo _ a => bodies k a
  | group j a => (if j = k then [a] else []) ++ bodies k a

/-- Where the value of a group comes from. -/
def Captured (k : Nat) (as : List Regex) (s : Cursor) (w : List Char) : Prop :=
  s.groups.lookup k = some w ∨ ∃ a ∈ as, Word a w

theorem Captured.mono {k : Nat} {as bs : List Regex} {w : List Char} (h : Captured k as s w)
    (hsub : as ⊆ bs) : Captured k bs s w :=
  h.imp_right fun ⟨a, ha, hw⟩ => ⟨a, hsub ha, hw⟩

theorem Captured.trans {k : Nat} {as bs : List Regex} {w : List Char}
    (hs : t.groups.lookup k = some w → Captured k as s w) (h : Captured k bs t w) :
    Captured k (as ++ bs) s w := by
  rcases h with h | h
  · exact (hs h).mono (by simp)
  · obtain ⟨b, hb, hw⟩ := h
    exact .inr ⟨b, by simp [hb], hw⟩

theorem captured_iterate {k : Nat} {as : List Regex} {f : Cursor → List Cursor} {w : List Char}
    (hf : ∀ s t, t ∈ f s → t.groups.lookup k = some w → Captured k as s w) {n : Nat}
    (h : t ∈ iterate f n s) (hk : t.groups.lookup k = some w) : Captured k as s w := by
  induction n generalizing s with
  | zero =>
    obtain rfl := List.mem_singleton.mp h
    exact .inl hk
  | succ n ih =>
    rcases List.mem_append.mp h with h | h
    · obtain ⟨u, hu, ht⟩ := List.mem_flatMap.mp h
      exact ((ih ht).trans (hf s u (List.mem_filter.mp hu).1)).mono (by simp)
    · obtain rfl := List.mem_singleton.mp h
      exact .inl hk

/-- A group captures a text of one of its expressions. -/
theorem captured_of_mem_run {k : Nat} {w : List Char} (h : t ∈ run r s)
    (hk : t.groups.lookup k = some w) : Captured k (bodies k r) s w := by
  induction r generalizing s t with
  | empty =>
    obtain rfl := List.mem_singleton.mp h
    exact .inl hk
  | char p =>
    unfold run at h
    cases hs : s.rest with
    | nil => simp [hs] at h
    | cons c cs =>
      simp only [hs] at h
      split_ifs at h
      · obtain rfl := List.mem_singleton.mp h
        exact .inl hk
      · cases h
  | assert p =>
    unfold run at h
    split_ifs at h
    · obtain rfl := List.mem_singleton.mp h
      exact .inl hk
    · cases h
  | seq a b iha ihb =>
    obtain ⟨u, hu, ht⟩ := List.mem_flatMap.mp h
    exact (ihb ht hk).trans (iha hu)
  | alt a b iha ihb =>
    rcases List.mem_append.mp h with h | h
    · exact (iha h hk).mono (by simp [bodies])
    · exact (ihb h hk).mono (by simp [bodies])
  | star a ih => exact captured_iterate (fun _ _ => ih) h hk
  | upTo n a ih => exact captured_iterate (fun _ _ => ih) h hk
  | group j a ih =>
    obtain ⟨u, hu, rfl⟩ := List.mem_map.mp h
    obtain ⟨v, hv, hreads⟩ := word_of_mem_run hu
    by_cases hj : k = j
    · subst hj
      have hw : s.consumed u = w := by simpa [capture] using hk
      rw [hreads.consumed] at hw
      exact .inr ⟨a, by simp [bodies], hw ▸ hv⟩
    · have hlook : u.groups.lookup k = some w := by
        simpa [capture, List.lookup_cons, beq_eq_false_iff_ne.mpr hj] using hk
      exact (ih hu hlook).mono (by simp [bodies])

theorem mem_run_of_searchFrom {before text : List Char} {m : Match}
    (h : searchFrom r before text = some m) : m.stop ∈ run r m.start ∧ m.start.groups = [] := by
  induction text generalizing before with
  | nil =>
    simp only [searchFrom, Option.map_eq_some_iff] at h
    obtain ⟨t, ht, rfl⟩ := h
    exact ⟨List.mem_of_mem_head? ht, rfl⟩
  | cons c cs ih =>
    unfold searchFrom at h
    split at h
    · cases h
      rename_i ht
      exact ⟨List.mem_of_mem_head? ht, rfl⟩
    · exact ih h

/-- The text of a group of a match. -/
theorem word_of_group {text : String} {m : Match} {k : Nat} {w : List Char}
    (h : r.search text = some m) (hk : m.group k = some w) : ∃ a ∈ bodies k r, Word a w := by
  obtain ⟨hmem, hgroups⟩ := mem_run_of_searchFrom h
  rcases captured_of_mem_run hmem hk with hs | hw
  · simp [hgroups] at hs
  · exact hw

/-! ## Texts without a match -/

theorem text_of_searchFrom {before text : List Char} {m : Match} (h : searchFrom r before text = some m) :
    m.start.before.reverse ++ m.start.rest = before.reverse ++ text := by
  induction text generalizing before with
  | nil =>
    simp only [searchFrom, Option.map_eq_some_iff] at h
    obtain ⟨t, -, rfl⟩ := h
    rfl
  | cons c cs ih =>
    unfold searchFrom at h
    split at h
    · cases h
      rfl
    · rw [ih h]
      simp

/-- A match is somewhere in the text. -/
theorem word_of_occursIn {text : String} (h : occursIn r text = true) :
    ∃ pre w post, text.toList = pre ++ (w ++ post) ∧ Word r w := by
  obtain ⟨m, hm⟩ := Option.isSome_iff_exists.mp h
  obtain ⟨w, hw, hreads⟩ := word_of_mem_run (mem_run_of_searchFrom hm).1
  have htext := text_of_searchFrom hm
  rw [hreads.rest] at htext
  exact ⟨_, w, _, htext.symm, hw⟩

/-- Whether a text over the alphabet may be a word of the expression. -/
def spells (alphabet : List Char) : Regex → Bool
  | empty => true
  | char p => alphabet.any p
  | assert _ => true
  | seq a b => spells alphabet a && spells alphabet b
  | alt a b => spells alphabet a || spells alphabet b
  | star _ => true
  | upTo _ _ => true
  | group _ a => spells alphabet a

theorem spells_of_word {alphabet w : List Char} (h : Word r w) (hw : ∀ c ∈ w, c ∈ alphabet) :
    spells alphabet r = true := by
  induction r generalizing w with
  | empty => rfl
  | char p =>
    obtain ⟨c, hc, rfl⟩ := h
    exact List.any_eq_true.mpr ⟨c, hw c (by simp), hc⟩
  | assert p => rfl
  | seq a b iha ihb =>
    obtain ⟨u, v, hu, hv, rfl⟩ := h
    have ha := iha hu fun c hc => hw c (by simp [hc])
    have hb := ihb hv fun c hc => hw c (by simp [hc])
    simp [spells, ha, hb]
  | alt a b iha ihb =>
    rcases h with h | h
    · simp [spells, iha h hw]
    · simp [spells, ihb h hw]
  | star a ih => rfl
  | upTo n a ih => rfl
  | group k a ih => exact ih h hw

/-- An expression each of whose words leaves an alphabet does not match a text over it. -/
theorem occursIn_eq_false (alphabet : List Char) {text : String} (hr : spells alphabet r = false)
    (htext : ∀ c ∈ text.toList, c ∈ alphabet) : occursIn r text = false := by
  rw [← Bool.not_eq_true]
  intro h
  obtain ⟨pre, w, post, hsplit, hw⟩ := word_of_occursIn h
  have hspells := spells_of_word hw fun c hc => htext c (by simp [hsplit, hc])
  rw [hr] at hspells
  cases hspells

/-! ## Expressions that agree on an alphabet -/

/-- The same expression up to predicates that agree on an alphabet. -/
inductive Agree (P : Char → Prop) : Regex → Regex → Prop where
  | refl (r : Regex) : Agree P r r
  | char {p q : Char → Bool} (h : ∀ c, P c → p c = q c) : Agree P (char p) (char q)
  | assert {p q : Option Char → Option Char → Bool}
      (h : ∀ b a : Option Char, (∀ c ∈ b, P c) → (∀ c ∈ a, P c) → p b a = q b a) :
      Agree P (assert p) (assert q)
  | seq {a b c d : Regex} : Agree P a c → Agree P b d → Agree P (seq a b) (seq c d)
  | alt {a b c d : Regex} : Agree P a c → Agree P b d → Agree P (alt a b) (alt c d)
  | star {a b : Regex} : Agree P a b → Agree P (star a) (star b)
  | upTo (n : Nat) {a b : Regex} : Agree P a b → Agree P (upTo n a) (upTo n b)
  | group (k : Nat) {a b : Regex} : Agree P a b → Agree P (group k a) (group k b)

theorem Agree.concat {P : Char → Prop} {as bs : List Regex} (h : List.Forall₂ (Agree P) as bs) :
    Agree P (concat as) (concat bs) := by
  induction h with
  | nil => exact .refl _
  | cons hab htail ih =>
    cases htail with
    | nil => exact hab
    | cons _ _ => exact .seq hab ih

theorem Agree.times {P : Char → Prop} {a b : Regex} (h : Agree P a b) (n : Nat) :
    Agree P (times n a) (times n b) := by
  induction n with
  | zero => exact .refl _
  | succ n ih => exact .seq h ih

theorem Agree.between {P : Char → Prop} {a b : Regex} (h : Agree P a b) (m n : Nat) :
    Agree P (between m n a) (between m n b) :=
  .seq (h.times m) (.upTo _ h)

/-- A cursor in a text over an alphabet. -/
def Over (P : Char → Prop) (s : Cursor) : Prop := ∀ c ∈ s.before.reverse ++ s.rest, P c

variable {P : Char → Prop}

theorem Over.of_mem_run (hs : Over P s) (h : t ∈ run r s) : Over P t := by
  obtain ⟨w, -, hreads⟩ := word_of_mem_run h
  unfold Over
  rwa [hreads.text]

theorem iterate_congr {f g : Cursor → List Cursor} (hfg : ∀ s, Over P s → f s = g s)
    (hf : ∀ s t, Over P s → t ∈ f s → Over P t) (n : Nat) (hs : Over P s) :
    iterate f n s = iterate g n s := by
  induction n generalizing s with
  | zero => rfl
  | succ n ih =>
    unfold iterate
    rw [← hfg s hs]
    congr 1
    apply List.flatMap_congr
    intro t ht
    exact ih (hf s t hs (List.mem_filter.mp ht).1)

/-- Expressions that agree match alike. -/
theorem run_congr (h : Agree P a b) (hs : Over P s) : run a s = run b s := by
  induction h generalizing s with
  | refl r => rfl
  | @char p q h =>
    unfold run
    cases hrest : s.rest with
    | nil => rfl
    | cons c cs =>
      have hc := h c (hs c (by simp [hrest]))
      simp only [hc]
  | assert h =>
    unfold run
    rw [h]
    · intro c hc
      exact hs c (by simp [List.mem_of_mem_head? hc])
    · intro c hc
      exact hs c (by simp [List.mem_of_mem_head? hc])
  | seq _ _ iha ihb =>
    unfold run
    rw [← iha hs]
    apply List.flatMap_congr
    intro t ht
    exact ihb (hs.of_mem_run ht)
  | alt _ _ iha ihb =>
    unfold run
    rw [iha hs, ihb hs]
  | star _ ih => exact iterate_congr (fun _ => ih) (fun _ _ hs ht => hs.of_mem_run ht) _ hs
  | upTo n _ ih => exact iterate_congr (fun _ => ih) (fun _ _ hs ht => hs.of_mem_run ht) n hs
  | group k _ ih =>
    unfold run
    rw [ih hs]

theorem searchFrom_congr (h : Agree P a b) {before text : List Char}
    (htext : ∀ c ∈ before.reverse ++ text, P c) : searchFrom a before text = searchFrom b before text := by
  induction text generalizing before with
  | nil =>
    unfold searchFrom
    rw [run_congr h (s := ⟨before, [], []⟩) htext]
  | cons c cs ih =>
    unfold searchFrom
    rw [run_congr h (s := ⟨before, c :: cs, []⟩) htext, ih (by simpa using htext)]

theorem occursIn_congr (h : Agree P a b) {text : String} (htext : ∀ c ∈ text.toList, P c) :
    occursIn a text = occursIn b text := by
  unfold occursIn search
  rw [searchFrom_congr h (by simpa using htext)]

end Regex

end Lib
