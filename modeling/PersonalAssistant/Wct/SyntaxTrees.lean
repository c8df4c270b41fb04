import Mathlib.Data.List.TakeWhile
import PersonalAssistant.Lib.Branching

/-!
# Syntax trees

The trees `ast.parse` returns, without positions, and the text `ast.dump` prints of them. A node has a class
and named fields; a field whose value is `None` is left out, as `ast.dump` leaves it out. The classes the
tools ask for have a head of their own. What is neither a node nor a list (a constant, the name of a
variable, a flag) is kept as its `repr`, which tells it.

The text determines the tree: `Node.dump_injective`.
-/
namespace PersonalAssistant.Wct

open Lib

/-! ## Words and literals -/

def isIdentifierChar (c : Char) : Bool := 128 ≤ c.toNat || c.isAlphanum || c == '_'

/-- A name: of the ASCII characters it has letters, digits and underscores only. -/
structure Identifier where
  text : String
  nonempty : text ≠ ""
  chars : text.toList.all isIdentifierChar = true

theorem Identifier.text_injective : Function.Injective Identifier.text := by
  rintro ⟨a, _, _⟩ ⟨b, _, _⟩ rfl; rfl

instance : DecidableEq Identifier := fun _ _ => decidable_of_iff _ Identifier.text_injective.eq_iff

/-- The characters of a constant that is not quoted: `None`, `-1`, `2.5e-07j`. -/
def isWordChar (c : Char) : Bool := c.isAlphanum || c == '.' || c == '+' || c == '-'

def isQuote (c : Char) : Bool := c == '\'' || c == '"'

/-- What stands behind the quote that closes a text. -/
def closing (quote : Char) : List Char → Option (List Char)
  | [] => none
  | [c] => if c = quote then some [] else none
  | c :: d :: cs =>
    if c = '\\' then closing quote cs
    else if c = quote then some (d :: cs)
    else closing quote (d :: cs)

/-- What stands behind the constant in front. -/
def literalRest : List Char → Option (List Char)
  | [] => none
  | [c] => if isWordChar c then some [] else none
  | c :: d :: cs =>
    if isQuote c then closing c (d :: cs)
    else if c = 'b' ∧ isQuote d then closing d cs
    else if isWordChar c then some ((d :: cs).dropWhile isWordChar)
    else none

/-- A constant by its `repr`: a word, or a text or bytes in quotes. -/
structure Literal where
  text : String
  complete : literalRest text.toList = some []
deriving DecidableEq

namespace Literal

/-- `None`. -/
def none : Literal := ⟨"None", by decide⟩

/-- `Ellipsis`. -/
def ellipsis : Literal := ⟨"Ellipsis", by decide⟩

end Literal

/-! ## Trees -/

/-- The classes that have a head of their own. -/
def namedClasses : List String :=
  ["Module", "FunctionDef", "AsyncFunctionDef", "ClassDef", "Constant", "Compare", "BoolOp", "BinOp",
    "UnaryOp", "If", "IfExp", "While"]

/-- Any other class. -/
structure OtherClass where
  name : String
  nonempty : name ≠ ""
  letters : name.toList.all Char.isAlpha = true
  other : name ∉ namedClasses

theorem OtherClass.name_injective : Function.Injective OtherClass.name := by
  rintro ⟨a, _, _, _⟩ ⟨b, _, _, _⟩ rfl; rfl

instance : DecidableEq OtherClass := fun _ _ => decidable_of_iff _ OtherClass.name_injective.eq_iff

/-- The class of a node, with its first field where the tools read it. -/
inductive Head where
  | module
  | functionDef (name : Identifier)
  | asyncFunctionDef (name : Identifier)
  | classDef (name : Identifier)
  | constant (value : Literal)
  | compare
  | boolOp
  | binOp
  | unaryOp
  | if_
  | ifExp
  | while_
  | other (cls : OtherClass)
deriving DecidableEq

mutual

inductive Node where
  | mk (head : Head) (fields : List (Identifier × Value))

inductive Value where
  | literal (value : Literal)
  | node (node : Node)
  | list (items : List Value)

end

def Value.node? : Value → Option Node
  | .node n => some n
  | _ => none

/-- The nodes a field holds. -/
def Value.nodes : Value → List Node
  | .literal _ => []
  | .node n => [n]
  | .list items => items.filterMap Value.node?

namespace Node

def head : Node → Head
  | mk head _ => head

def fields : Node → List (Identifier × Value)
  | mk _ fields => fields

/-- `ast.iter_child_nodes(node)`. -/
def childNodes (node : Node) : List Node := node.fields.flatMap fun field => field.2.nodes

end Node

theorem Value.eq_node_of_node? {v : Value} {n : Node} (h : v.node? = some n) : v = .node n := by
  cases v <;> grind [Value.node?]

theorem Value.sizeOf_lt_of_mem_nodes {v : Value} {n : Node} (h : n ∈ v.nodes) : sizeOf n < sizeOf v := by
  cases v with
  | literal l => cases h
  | node m =>
    obtain rfl := List.mem_singleton.mp h
    simp only [Value.node.sizeOf_spec]
    omega
  | list items =>
    obtain ⟨item, hitem, hn⟩ := List.mem_filterMap.mp h
    obtain rfl := Value.eq_node_of_node? hn
    have := List.sizeOf_lt_of_mem hitem
    simp only [Value.node.sizeOf_spec, Value.list.sizeOf_spec] at *
    omega

theorem Node.sizeOf_lt_of_mem_childNodes {a b : Node} (h : b ∈ a.childNodes) : sizeOf b < sizeOf a := by
  obtain ⟨head, fields⟩ := a
  obtain ⟨⟨name, v⟩, hfield, hb⟩ := List.mem_flatMap.mp h
  have hfields := List.sizeOf_lt_of_mem hfield
  have hv := Value.sizeOf_lt_of_mem_nodes hb
  simp only [Node.mk.sizeOf_spec, Prod.mk.sizeOf_spec, Node.fields] at *
  omega

/-- Syntax trees as trees of nodes. -/
def syntaxTree : Branching Node where
  children := Node.childNodes
  bounded := ⟨sizeOf, fun _ _ => Node.sizeOf_lt_of_mem_childNodes⟩

/-- What `ast.parse` returns: a node of class `Module`. -/
structure Module where
  fields : List (Identifier × Value)

def Module.node (tree : Module) : Node := .mk .module tree.fields

/-! ## The text of a tree -/

namespace Head

def className : Head → String
  | module => "Module"
  | functionDef _ => "FunctionDef"
  | asyncFunctionDef _ => "AsyncFunctionDef"
  | classDef _ => "ClassDef"
  | constant _ => "Constant"
  | compare => "Compare"
  | boolOp => "BoolOp"
  | binOp => "BinOp"
  | unaryOp => "UnaryOp"
  | if_ => "If"
  | ifExp => "IfExp"
  | while_ => "While"
  | other cls => cls.name

/-- The first field of a head that keeps it, as `ast.dump` prints it. -/
def ownArgument : Head → List (List Char)
  | functionDef name | asyncFunctionDef name | classDef name =>
    ["name='".toList ++ name.text.toList ++ ['\'']]
  | constant value => ["value=".toList ++ value.text.toList]
  | _ => []

end Head

/-- The pieces behind the first, and the bracket that closes them. -/
def following (close : Char) : List (List Char) → List Char
  | [] => [close]
  | x :: xs => ',' :: ' ' :: (x ++ following close xs)

/-- Pieces with `", "` between them, and the bracket that closes them. -/
def joined (close : Char) : List (List Char) → List Char
  | [] => [close]
  | x :: xs => x ++ following close xs

mutual

def Node.dumpChars : Node → List Char
  | .mk head fields =>
    head.className.toList ++ '(' :: joined ')' (head.ownArgument ++ dumpFields fields)

def Value.dumpChars : Value → List Char
  | .literal value => value.text.toList
  | .node n => n.dumpChars
  | .list items => '[' :: joined ']' (dumpItems items)

def dumpFields : List (Identifier × Value) → List (List Char)
  | [] => []
  | (name, value) :: fields => (name.text.toList ++ '=' :: value.dumpChars) :: dumpFields fields

def dumpItems : List Value → List (List Char)
  | [] => []
  | value :: items => value.dumpChars :: dumpItems items

end

/-- `ast.dump(node, include_attributes=False)`. -/
def Node.dump (node : Node) : String := String.ofList node.dumpChars

/-! ## The text determines the tree -/

section Reading

variable {p : Char → Bool} {c d : Char} {xs ys r r' cs : List Char}

/-- Two texts of one kind of character, each ended by a character of another kind. -/
theorem append_inj_of_all (hx : ∀ c ∈ xs, p c = true) (hy : ∀ c ∈ ys, p c = true) (hd : p d = false)
    (h : xs ++ d :: r = ys ++ d :: r') : xs = ys ∧ r = r' := by
  induction xs generalizing ys with
  | nil =>
    cases ys with
    | nil => exact ⟨rfl, (List.cons.inj h).2⟩
    | cons y ys => grind
  | cons x xs ih =>
    cases ys with
    | nil => grind
    | cons y ys =>
      rw [List.cons_append, List.cons_append, List.cons.injEq] at h
      obtain ⟨rfl, rfl⟩ := ih (fun c hc => hx c (List.mem_cons_of_mem _ hc))
        (fun c hc => hy c (List.mem_cons_of_mem _ hc)) h.2
      exact ⟨by rw [h.1], rfl⟩

/-- What may follow a value: nothing, a comma or a closing bracket. -/
def Ends (r : List Char) : Prop := ∀ c ∈ r.head?, c = ',' ∨ c = ')' ∨ c = ']'

theorem Ends.head (h : Ends (c :: r)) : isWordChar c = false ∧ isQuote c = false := by
  obtain rfl | rfl | rfl := h c rfl <;> decide

theorem closing_append {quote : Char} {rest : List Char} (hquote : isQuote quote = true)
    (h : closing quote cs = some rest) : closing quote (cs ++ r) = some (rest ++ r) := by
  have hne : quote ≠ '\\' := by
    rintro rfl
    cases hquote
  fun_induction closing quote cs with
  | case1 => cases h
  | case2 =>
    cases h
    cases r <;> grind [closing]
  | case3 => cases h
  | case4 d cs ih => simpa [closing] using ih h
  | case5 d cs hslash =>
    cases h
    simp [closing, hslash]
  | case6 c d cs hslash hother ih => simpa [closing, hslash, hother] using ih h

/-- A constant is read back in front of whatever may follow it. -/
theorem literalRest_append (h : literalRest cs = some []) (hr : Ends r) :
    literalRest (cs ++ r) = some r := by
  match cs with
  | [] => cases h
  | [c] =>
    have hc : isWordChar c = true := by grind [literalRest]
    have hquote : isQuote c = false := by
      by_contra hq
      simp only [isQuote, Bool.not_eq_false, Bool.or_eq_true, beq_iff_eq] at hq
      obtain rfl | rfl := hq <;> revert hc <;> decide
    cases r with
    | nil => simp [literalRest, hc]
    | cons d r => simp [literalRest, hc, hquote, hr.head]
  | c :: d :: cs =>
    rw [literalRest] at h
    rw [List.cons_append, List.cons_append, literalRest]
    split_ifs at h ⊢ with h₁ h₂ h₃
    · simpa using closing_append h₁ h
    · simpa using closing_append h₂.2 h
    · have hall : ∀ e ∈ d :: cs, isWordChar e = true := by
        simpa [List.dropWhile_eq_nil_iff] using h
      rw [← List.cons_append, List.dropWhile_append_of_pos hall]
      cases r with
      | nil => rfl
      | cons e r => simp [hr.head]

theorem Literal.append_inj {l l' : Literal} (hr : Ends r) (hr' : Ends r')
    (h : l.text.toList ++ r = l'.text.toList ++ r') : l = l' ∧ r = r' := by
  have hread := literalRest_append l.complete hr
  rw [h, literalRest_append l'.complete hr', Option.some.injEq] at hread
  subst hread
  have htext := String.toList_inj.mp (List.append_cancel_right h)
  obtain ⟨text, hcomplete⟩ := l
  cases htext
  exact ⟨rfl, rfl⟩

end Reading

theorem Identifier.head (name : Identifier) :
    ∃ c cs, name.text.toList = c :: cs ∧ isIdentifierChar c = true := by
  cases h : name.text.toList with
  | nil => exact absurd (String.toList_inj.mp (h.trans (by rfl : [] = "".toList))) name.nonempty
  | cons c cs => exact ⟨c, cs, rfl, List.all_eq_true.mp name.chars c (by simp [h])⟩

theorem Identifier.ext {a b : Identifier} (h : a.text.toList = b.text.toList) : a = b := by
  obtain ⟨text, hne, hchars⟩ := a
  cases String.toList_inj.mp h
  rfl

namespace Head

variable {head head' : Head} {fields fields' : List (List Char)} {r r' : List Char}

theorem className_mem (head : Head) : head.className ∈ namedClasses ∨ ∃ cls, head = .other cls := by
  cases head with
  | other cls => exact .inr ⟨cls, rfl⟩
  | _ => exact .inl (by simp [className, namedClasses])

theorem namedClasses_letters :
    ∀ name ∈ namedClasses, name ≠ "" ∧ name.toList.all Char.isAlpha = true := by decide

theorem className_letters (head : Head) :
    head.className ≠ "" ∧ head.className.toList.all Char.isAlpha = true := by
  obtain h | ⟨cls, rfl⟩ := head.className_mem
  · exact namedClasses_letters _ h
  · exact ⟨cls.nonempty, cls.letters⟩

/-- Heads of one class differ in the field they keep only. -/
theorem eq_of_className (h : head.className = head'.className) :
    (∃ a b, head = .functionDef a ∧ head' = .functionDef b) ∨
    (∃ a b, head = .asyncFunctionDef a ∧ head' = .asyncFunctionDef b) ∨
    (∃ a b, head = .classDef a ∧ head' = .classDef b) ∨
    (∃ a b, head = .constant a ∧ head' = .constant b) ∨ (head = head' ∧ head.ownArgument = []) := by
  obtain hnamed | ⟨cls, rfl⟩ := head.className_mem
  · have hnamed' := h ▸ hnamed
    cases head with
    | other cls => exact absurd hnamed cls.other
    | _ =>
      cases head' with
      | other cls => exact absurd hnamed' cls.other
      | _ => simp_all [className, ownArgument]
  · obtain hnamed' | ⟨cls', rfl⟩ := head'.className_mem
    · rw [← h] at hnamed'
      exact absurd hnamed' cls.other
    · obtain ⟨name, hne, hletters, hother⟩ := cls
      cases h
      exact .inr (.inr (.inr (.inr ⟨rfl, rfl⟩)))

end Head

section Pieces

variable {close : Char} {xs ys : List (List Char)} {r r' : List Char}

/-- No piece is empty or starts with the closing bracket. -/
def Opens (close : Char) (xs : List (List Char)) : Prop := ∀ x ∈ xs, ∃ c cs, x = c :: cs ∧ c ≠ close

theorem ends_following (hclose : close = ')' ∨ close = ']') (xs : List (List Char)) (r : List Char) :
    Ends (following close xs ++ r) := by
  cases xs with
  | nil => grind [following, Ends]
  | cons x xs => simp [following, Ends]

/-- Where the first piece ends, the others begin. -/
theorem following_of_joined (hx : Opens close xs) (hy : Opens close ys)
    (h : joined close xs ++ r = joined close ys ++ r') :
    following close xs ++ r = following close ys ++ r' := by
  cases xs with
  | nil =>
    cases ys with
    | nil => exact h
    | cons y ys =>
      obtain ⟨c, cs, rfl, hc⟩ := hy _ List.mem_cons_self
      exact absurd (List.cons.inj h).1.symm hc
  | cons x xs =>
    cases ys with
    | nil =>
      obtain ⟨c, cs, rfl, hc⟩ := hx _ List.mem_cons_self
      exact absurd (List.cons.inj h).1 hc
    | cons y ys => simpa [joined, following] using h

theorem name_inj {a b : Identifier}
    (h : joined ')' (["name='".toList ++ a.text.toList ++ ['\'']] ++ xs) ++ r =
      joined ')' (["name='".toList ++ b.text.toList ++ ['\'']] ++ ys) ++ r') :
    a = b ∧ following ')' xs ++ r = following ')' ys ++ r' := by
  simp only [List.cons_append, List.nil_append, joined, List.append_assoc] at h
  have hname := List.append_cancel_left h
  obtain ⟨htext, hrest⟩ := append_inj_of_all (List.all_eq_true.mp a.chars) (List.all_eq_true.mp b.chars)
    (by decide) hname
  exact ⟨Identifier.ext htext, hrest⟩

theorem Head.inj {head head' : Head} (hname : head.className = head'.className) (hx : Opens ')' xs)
    (hy : Opens ')' ys) (h : joined ')' (head.ownArgument ++ xs) ++ r =
      joined ')' (head'.ownArgument ++ ys) ++ r') :
    head = head' ∧ following ')' xs ++ r = following ')' ys ++ r' := by
  obtain ⟨a, b, rfl, rfl⟩ | ⟨a, b, rfl, rfl⟩ | ⟨a, b, rfl, rfl⟩ | ⟨a, b, rfl, rfl⟩ | ⟨rfl, hown⟩ :=
    eq_of_className hname
  · obtain ⟨rfl, hrest⟩ := name_inj h
    exact ⟨rfl, hrest⟩
  · obtain ⟨rfl, hrest⟩ := name_inj h
    exact ⟨rfl, hrest⟩
  · obtain ⟨rfl, hrest⟩ := name_inj h
    exact ⟨rfl, hrest⟩
  · simp only [Head.ownArgument, List.cons_append, List.nil_append, joined, List.append_assoc] at h
    obtain ⟨rfl, hrest⟩ := Literal.append_inj (ends_following (.inl rfl) xs r)
      (ends_following (.inl rfl) ys r') (List.append_cancel_left h)
    exact ⟨rfl, hrest⟩
  · rw [hown] at h
    exact ⟨rfl, following_of_joined hx hy h⟩

end Pieces

theorem Node.dumpChars_cons (head : Head) (fields : List (Identifier × Value)) :
    ∃ c cs, (Node.mk head fields).dumpChars = c :: cs ∧ c.isAlpha = true := by
  obtain ⟨hne, hletters⟩ := head.className_letters
  rw [Node.dumpChars]
  cases h : head.className.toList with
  | nil => exact absurd (String.toList_inj.mp (h.trans (by rfl : [] = "".toList))) hne
  | cons c cs => exact ⟨c, _, rfl, List.all_eq_true.mp hletters c (by simp [h])⟩

theorem opens_dumpFields (fields : List (Identifier × Value)) : Opens ')' (dumpFields fields) := by
  induction fields with
  | nil => simp [Opens, dumpFields]
  | cons field fields ih =>
    obtain ⟨name, value⟩ := field
    obtain ⟨c, cs, hname, hc⟩ := name.head
    rw [dumpFields]
    refine List.forall_mem_cons.mpr ⟨⟨c, _, by rw [hname, List.cons_append], ?_⟩, ih⟩
    rintro rfl
    cases hc

theorem literalRest_bracket (cs : List Char) : literalRest ('[' :: cs) = none := by
  cases cs <;> rfl

theorem isWordChar_of_isAlpha {c : Char} (h : c.isAlpha = true) : isWordChar c = true := by
  simp [isWordChar, Char.isAlphanum, h]

theorem not_isQuote_of_isAlpha {c : Char} (h : c.isAlpha = true) : isQuote c = false := by
  by_contra hq
  simp only [isQuote, Bool.not_eq_false, Bool.or_eq_true, beq_iff_eq] at hq
  obtain rfl | rfl := hq <;> cases h

/-- A class name is no constant: what follows it opens the arguments. -/
theorem literalRest_className (head : Head) (cs : List Char) :
    literalRest (head.className.toList ++ '(' :: cs) = some ('(' :: cs) := by
  obtain ⟨hne, hletters⟩ := head.className_letters
  have hall : ∀ c ∈ head.className.toList, isWordChar c = true := fun c hc =>
    isWordChar_of_isAlpha (List.all_eq_true.mp hletters c hc)
  cases h : head.className.toList with
  | nil => exact absurd (String.toList_inj.mp (h.trans (by rfl : [] = "".toList))) hne
  | cons c name =>
    rw [h] at hall hletters
    have hquote : ∀ d ∈ c :: name, isQuote d = false := fun d hd =>
      not_isQuote_of_isAlpha (List.all_eq_true.mp hletters d hd)
    have hdrop : (name ++ '(' :: cs).dropWhile isWordChar = '(' :: cs := by
      rw [List.dropWhile_append_of_pos fun d hd => hall d (List.mem_cons_of_mem c hd)]
      rfl
    have hparen : isQuote '(' = false := by decide
    cases name with
    | nil => grind [literalRest]
    | cons d name => grind [literalRest]

theorem opens_dumpItems (items : List Value) : Opens ']' (dumpItems items) := by
  induction items with
  | nil => simp [Opens, dumpItems]
  | cons value items ih =>
    rw [dumpItems]
    refine List.forall_mem_cons.mpr ⟨?_, ih⟩
    cases value with
    | literal l =>
      have hread := l.complete
      rw [Value.dumpChars]
      cases h : l.text.toList with
      | nil => simp [h, literalRest] at hread
      | cons c cs =>
        refine ⟨c, cs, rfl, ?_⟩
        rintro rfl
        rw [h] at hread
        cases cs <;> cases hread
    | node n =>
      obtain ⟨head, fields⟩ := n
      obtain ⟨c, cs, h, hc⟩ := Node.dumpChars_cons head fields
      refine ⟨c, cs, by rw [Value.dumpChars, h], ?_⟩
      rintro rfl
      cases hc
    | list vs => exact ⟨'[', _, by rw [Value.dumpChars], by decide⟩

mutual

/-- Two texts that start with a node hold the same node and the same rest. -/
theorem Node.dumpChars_inj : ∀ (a b : Node) (r r' : List Char),
    a.dumpChars ++ r = b.dumpChars ++ r' → a = b ∧ r = r'
  | .mk head fields, .mk head' fields', r, r', h => by
    rw [Node.dumpChars, Node.dumpChars, List.append_assoc, List.append_assoc, List.cons_append,
      List.cons_append] at h
    obtain ⟨hname, hargs⟩ := append_inj_of_all (List.all_eq_true.mp head.className_letters.2)
      (List.all_eq_true.mp head'.className_letters.2) (by decide) h
    obtain ⟨rfl, hrest⟩ := Head.inj (String.toList_inj.mp hname) (opens_dumpFields fields)
      (opens_dumpFields fields') hargs
    obtain ⟨rfl, rfl⟩ := dumpFields_inj fields fields' r r' hrest
    exact ⟨rfl, rfl⟩

theorem Value.dumpChars_inj : ∀ (a b : Value) (r r' : List Char), Ends r → Ends r' →
    a.dumpChars ++ r = b.dumpChars ++ r' → a = b ∧ r = r'
  | .literal l, .literal l', r, r', hr, hr', h => by
    obtain ⟨rfl, rfl⟩ := Literal.append_inj hr hr' (by simpa only [Value.dumpChars] using h)
    exact ⟨rfl, rfl⟩
  | .literal l, .node (.mk head fields), r, r', hr, _, h => by
    have hread := literalRest_append l.complete hr
    rw [Value.dumpChars, Value.dumpChars, Node.dumpChars, List.append_assoc, List.cons_append] at h
    rw [h, literalRest_className] at hread
    cases hread
    simp [Ends] at hr
  | .literal l, .list items, r, r', hr, _, h => by
    have hread := literalRest_append l.complete hr
    rw [Value.dumpChars, Value.dumpChars, List.cons_append] at h
    rw [h, literalRest_bracket] at hread
    cases hread
  | .node (.mk head fields), .literal l, r, r', _, hr', h => by
    have hread := literalRest_append l.complete hr'
    rw [Value.dumpChars, Value.dumpChars, Node.dumpChars, List.append_assoc, List.cons_append] at h
    rw [← h, literalRest_className] at hread
    cases hread
    simp [Ends] at hr'
  | .node n, .node n', r, r', _, _, h => by
    obtain ⟨rfl, rfl⟩ := Node.dumpChars_inj n n' r r' (by simpa only [Value.dumpChars] using h)
    exact ⟨rfl, rfl⟩
  | .node (.mk head fields), .list items, r, r', _, _, h => by
    obtain ⟨c, cs, hcons, hc⟩ := Node.dumpChars_cons head fields
    rw [Value.dumpChars, Value.dumpChars, hcons] at h
    obtain rfl := (List.cons.inj h).1
    cases hc
  | .list items, .literal l, r, r', _, hr', h => by
    have hread := literalRest_append l.complete hr'
    rw [Value.dumpChars, Value.dumpChars, List.cons_append] at h
    rw [← h, literalRest_bracket] at hread
    cases hread
  | .list items, .node (.mk head fields), r, r', _, _, h => by
    obtain ⟨c, cs, hcons, hc⟩ := Node.dumpChars_cons head fields
    rw [Value.dumpChars, Value.dumpChars, hcons] at h
    obtain rfl := (List.cons.inj h).1
    cases hc
  | .list items, .list items', r, r', _, _, h => by
    rw [Value.dumpChars, Value.dumpChars] at h
    obtain ⟨rfl, rfl⟩ := dumpItems_inj items items' r r'
      (following_of_joined (opens_dumpItems items) (opens_dumpItems items') (List.cons.inj h).2)
    exact ⟨rfl, rfl⟩

theorem dumpFields_inj : ∀ (fs gs : List (Identifier × Value)) (r r' : List Char),
    following ')' (dumpFields fs) ++ r = following ')' (dumpFields gs) ++ r' → fs = gs ∧ r = r'
  | [], [], r, r', h => by simpa [dumpFields, following] using h
  | [], (name, value) :: gs, r, r', h => by simp [dumpFields, following] at h
  | (name, value) :: fs, [], r, r', h => by simp [dumpFields, following] at h
  | (name, value) :: fs, (name', value') :: gs, r, r', h => by
    simp only [dumpFields, following, List.cons_append, List.cons.injEq, true_and, List.append_assoc] at h
    obtain ⟨hname, hvalue⟩ := append_inj_of_all (List.all_eq_true.mp name.chars)
      (List.all_eq_true.mp name'.chars) (by decide) h
    obtain ⟨rfl, hrest⟩ := Value.dumpChars_inj value value' _ _ (ends_following (.inl rfl) _ r)
      (ends_following (.inl rfl) _ r') hvalue
    obtain ⟨rfl, rfl⟩ := dumpFields_inj fs gs r r' hrest
    exact ⟨by rw [Identifier.ext hname], rfl⟩

theorem dumpItems_inj : ∀ (vs ws : List Value) (r r' : List Char),
    following ']' (dumpItems vs) ++ r = following ']' (dumpItems ws) ++ r' → vs = ws ∧ r = r'
  | [], [], r, r', h => by simpa [dumpItems, following] using h
  | [], w :: ws, r, r', h => by simp [dumpItems, following] at h
  | v :: vs, [], r, r', h => by simp [dumpItems, following] at h
  | v :: vs, w :: ws, r, r', h => by
    simp only [dumpItems, following, List.cons_append, List.cons.injEq, true_and, List.append_assoc] at h
    obtain ⟨rfl, hrest⟩ := Value.dumpChars_inj v w _ _ (ends_following (.inr rfl) _ r)
      (ends_following (.inr rfl) _ r') h
    obtain ⟨rfl, rfl⟩ := dumpItems_inj vs ws r r' hrest
    exact ⟨rfl, rfl⟩

end

theorem Node.dump_injective : Function.Injective Node.dump := by
  intro a b h
  have htext : a.dumpChars ++ [] = b.dumpChars ++ [] := by
    simpa [Node.dump] using congrArg String.toList h
  exact (Node.dumpChars_inj a b [] [] htext).1

end PersonalAssistant.Wct
