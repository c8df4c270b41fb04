import PersonalAssistant.Privacy.Boundary
import PersonalAssistant.Privacy.Documents

/-!
# Further passes

The redactor takes its own output again. The texts it writes are kept as they are, and a document it
returned has no category value that nests deeper than the object it came from, and no value that could not
be written as a text.
-/
namespace PersonalAssistant

open Lib

variable {platform : Platform} {t : PrivacyTables}

namespace Privacy

/-! ## Fixed texts -/

section Texts

variable {u : Unicode} {text value : String}

theorem toList_hashForm (text : String) :
    (hashForm platform text).toList = hashPrefix ++ (platform.sha256 text).text.toList := by
  rw [hashForm, String.toList_append]
  rfl

theorem mem_hashForm {c : Char} (hc : c ∈ (hashForm platform text).toList) :
    c ∈ hashPrefix ∨ isHexChar c = true := by
  rw [toList_hashForm] at hc
  exact (List.mem_append.mp hc).imp_right ((Digest.toList _).1 c)

theorem strip_strip (s : String) : strip (strip s) = strip s := stripBy_stripBy s

theorem strip_hashForm (text : String) : strip (hashForm platform text) = hashForm platform text := by
  refine stripBy_eq_self_of_all fun c hc => ?_
  rcases mem_hashForm hc with hc | hc
  · have hprefix : hashPrefix.all (fun c => !isSpace c) = true := by decide
    simpa using List.all_eq_true.mp hprefix c hc
  · exact isHexChar_not_isSpace hc

theorem hashForm_ne_empty (text : String) : hashForm platform text ≠ "" := by
  intro h
  have hlist := congrArg String.toList h
  rw [toList_hashForm] at hlist
  exact absurd hlist (by simp [hashPrefix])

theorem isIdentifierChar_of_isHexChar {c : Char} (h : isHexChar c = true) : isIdentifierChar c = true := by
  have hword : ∀ c ∈ hashAlphabet, isIdentifierChar c = true := List.all_eq_true.mp (by decide)
  exact hword c (mem_hashAlphabet h)

theorem matchesSafeIdentifier_hashForm (text : String) :
    matchesSafeIdentifier (hashForm platform text) = true := by
  obtain ⟨hhex, hlength⟩ := Digest.toList (platform.sha256 text)
  rw [← String.length_toList] at hlength
  have htail : ∀ c ∈ ['h', 'a', '2', '5', '6', ':'], isIdentifierChar c = true :=
    List.all_eq_true.mp (by decide)
  have hlist : (hashForm platform text).toList =
      's' :: (['h', 'a', '2', '5', '6', ':'] ++ (platform.sha256 text).text.toList) := toList_hashForm text
  have hall : (['h', 'a', '2', '5', '6', ':'] ++ (platform.sha256 text).text.toList).all
      isIdentifierChar = true := by
    rw [List.all_eq_true]
    intro c hc
    exact (List.mem_append.mp hc).elim (htail c) fun hc => isIdentifierChar_of_isHexChar (hhex c hc)
  simp only [matchesSafeIdentifier, isToken, hlist, hall, List.length_append, hlength]
  decide

theorem isTelegramSource_hashForm (text : String) : isTelegramSource (hashForm platform text) = false := by
  refine Regex.occursIn_eq_false hashAlphabet rfl fun c hc => ?_
  rcases mem_hashForm hc with hc | hc
  · exact mem_hashAlphabet_of_mem_hashPrefix hc
  · exact mem_hashAlphabet hc

/-- A hash form is a safe identifier. -/
theorem safeIdentifier_hashForm (text : String) :
    safeIdentifier platform u (hashForm platform text) = hashForm platform text := by
  have hsensitive : isSensitiveString u (hashForm platform text) = false :=
    isSensitiveString_hash u (toList_hashForm text) (Digest.toList (platform.sha256 text)).1
  simp [safeIdentifier, strip_hashForm, hashForm_ne_empty, hsensitive, matchesSafeIdentifier_hashForm]

/-- An identifier is kept or replaced. -/
theorem safeIdentifier_cases (value : String) :
    safeIdentifier platform u value = hashForm platform (strip value) ∨
      safeIdentifier platform u value = strip value := by
  unfold safeIdentifier
  simp only
  split_ifs
  · exact .inr rfl
  · exact .inl rfl
  · exact .inr rfl

theorem strip_safeIdentifier (value : String) :
    strip (safeIdentifier platform u value) = safeIdentifier platform u value := by
  rcases @safeIdentifier_cases platform u value with h | h
  · rw [h, strip_hashForm]
  · rw [h, strip_strip]

theorem safeIdentifier_again (value : String) :
    safeIdentifier platform u (safeIdentifier platform u value) = safeIdentifier platform u value := by
  by_cases hempty : strip value = ""
  · simp only [safeIdentifier, hempty, if_true]
    rfl
  · by_cases hsensitive : (isSensitiveString u (strip value) || !matchesSafeIdentifier (strip value)) = true
    · have h : safeIdentifier platform u value = hashForm platform (strip value) := by
        simp only [safeIdentifier, hempty, hsensitive, if_true, if_false]
      rw [h, safeIdentifier_hashForm]
    · have h : safeIdentifier platform u value = strip value := by
        simp only [safeIdentifier, hempty, hsensitive, if_false]
        simp
      rw [h]
      simp only [safeIdentifier, strip_strip, hempty, hsensitive, if_false]
      simp

theorem opaqueTraceIdentifier_cases (value : String) :
    opaqueTraceIdentifier platform value = "" ∨
      opaqueTraceIdentifier platform value = hashForm platform (strip value) ∨
      opaqueTraceIdentifier platform value = strip value := by
  unfold opaqueTraceIdentifier
  simp only
  split_ifs with hempty
  · exact .inl hempty
  · exact .inr (.inr rfl)
  · exact .inr (.inl rfl)

theorem strip_opaqueTraceIdentifier (value : String) :
    strip (opaqueTraceIdentifier platform value) = opaqueTraceIdentifier platform value := by
  rcases @opaqueTraceIdentifier_cases platform value with h | h | h
  · rw [h]
    rfl
  · rw [h, strip_hashForm]
  · rw [h, strip_strip]

theorem opaqueTraceIdentifier_again (value : String) :
    opaqueTraceIdentifier platform (opaqueTraceIdentifier platform value) =
      opaqueTraceIdentifier platform value := by
  by_cases hempty : strip value = ""
  · simp only [opaqueTraceIdentifier, hempty, if_true]
    rfl
  · by_cases hhash : (hashPrefix.isPrefixOf (strip value).toList && matchesSafeHash (strip value)) = true
    · have h : opaqueTraceIdentifier platform value = strip value := by
        simp only [opaqueTraceIdentifier, hempty, hhash, if_true, if_false]
      rw [h]
      simp only [opaqueTraceIdentifier, strip_strip, hempty, hhash, if_true, if_false]
    · have h : opaqueTraceIdentifier platform value = hashForm platform (strip value) := by
        simp only [opaqueTraceIdentifier, hempty, hhash, if_false]
        simp
      have hprefix : hashPrefix.isPrefixOf (hashForm platform (strip value)).toList = true := by
        rw [toList_hashForm]
        simp [List.isPrefixOf_iff_prefix]
      rw [h]
      simp [opaqueTraceIdentifier, strip_hashForm, hashForm_ne_empty, hprefix, matchesSafeHash_hashForm]

theorem safeTraceRunId_strip (value : String) :
    safeTraceRunId platform u (strip value) = safeTraceRunId platform u value := by
  simp only [safeTraceRunId, strip_strip]

theorem safeTraceRunId_again (value : String) :
    safeTraceRunId platform u (safeTraceRunId platform u value) = safeTraceRunId platform u value := by
  have hkeep : ∀ s, strip s = s → (isTelegramSource s = true → opaqueTraceIdentifier platform s = s) →
      (isTelegramSource s = false → safeIdentifier platform u s = s) → safeTraceRunId platform u s = s := by
    intro s hstrip htelegram hother
    unfold safeTraceRunId
    simp only [hstrip]
    split_ifs with h
    · exact htelegram h
    · exact hother (by simpa using h)
  by_cases htelegram : isTelegramSource (strip value) = true
  · have h : safeTraceRunId platform u value = opaqueTraceIdentifier platform (strip value) := by
      simp only [safeTraceRunId, htelegram, if_true]
    rw [h]
    refine hkeep _ (strip_opaqueTraceIdentifier _) (fun _ => opaqueTraceIdentifier_again _) ?_
    intro hnot
    -- a text that keeps its source is still one
    rcases opaqueTraceIdentifier_cases (strip value) with hempty | hhash | hkept
    · rw [hempty]
      rfl
    · rw [hhash, safeIdentifier_hashForm]
    · rw [hkept, strip_strip, htelegram] at hnot
      cases hnot
  · have h : safeTraceRunId platform u value = safeIdentifier platform u (strip value) := by
      simp [safeTraceRunId, htelegram]
    rw [h]
    refine hkeep _ (strip_safeIdentifier _) ?_ fun _ => safeIdentifier_again _
    intro htelegram'
    rcases safeIdentifier_cases (strip value) with hhash | hkept
    · rw [hhash, isTelegramSource_hashForm] at htelegram'
      cases htelegram'
    · rw [hkept, strip_strip] at htelegram'
      exact absurd htelegram' htelegram

theorem safeCategory_again (value : String) :
    safeCategory u (safeCategory u value) = safeCategory u value := by
  have hredacted : safeCategory u redacted = redacted := by
    have hmatch : matchesSafeCategory redacted = false := by decide
    have hstrip : strip redacted = redacted := by decide
    simp only [safeCategory, hstrip, hmatch, Bool.not_false, Bool.or_true, if_true]
    rfl
  by_cases hempty : strip value = ""
  · simp only [safeCategory, hempty, if_true]
    rfl
  · by_cases hsensitive : (isSensitiveString u (strip value) || !matchesSafeCategory (strip value)) = true
    · have h : safeCategory u value = redacted := by
        simp only [safeCategory, hempty, hsensitive, if_true, if_false]
      rw [h, hredacted]
    · have h : safeCategory u value = strip value := by
        simp only [safeCategory, hempty, hsensitive, if_false]
        simp
      rw [h]
      simp only [safeCategory, strip_strip, hempty, hsensitive, if_false]
      simp

end Texts

/-! ## Keys of counters -/

section Counters

theorem exists_stripList_append {p : Char → Bool} {tail : List Char} {c d : Char}
    (hhead : tail.head? = some c) (hlast : tail.getLast? = some d) (hc : p c = false) (hd : p d = false)
    (cs : List Char) : ∃ cs', stripList p (cs ++ tail) = cs' ++ tail := by
  have htail : tail.dropWhile p = tail := by
    cases tail with
    | nil => rfl
    | cons c' tail =>
      obtain rfl := Option.some.inj hhead
      simp [hc]
  have hdrop : ∃ cs', (cs ++ tail).dropWhile p = cs' ++ tail := by
    rw [List.dropWhile_append]
    split_ifs
    · exact ⟨[], by rw [htail, List.nil_append]⟩
    · exact ⟨cs.dropWhile p, rfl⟩
  obtain ⟨cs', hcs'⟩ := hdrop
  refine ⟨cs', ?_⟩
  rw [stripList, hcs', List.rdropWhile_eq_self_iff]
  intro hne
  have hend : (cs' ++ tail).getLast? = some d := by
    rw [List.getLast?_append, hlast]
    rfl
  rw [List.getLast?_eq_some_getLast hne] at hend
  rw [Option.some.inj hend]
  simp [hd]

/-- The keys that count what was redacted are keys of numbers. -/
theorem itemClass_counter {suffix : String} (hsuffix : suffix ∈ ["_length", "_count"]) (key : String) :
    itemClass (some (key ++ suffix)) = .metric ∨ itemClass (some (key ++ suffix)) = .unknown := by
  have hends : ∃ cs, (strip (key ++ suffix)).toList = cs ++ suffix.toList := by
    rw [strip, toList_stripBy, String.toList_append]
    simp only [List.mem_cons, List.not_mem_nil, or_false] at hsuffix
    rcases hsuffix with rfl | rfl
    · exact exists_stripList_append rfl rfl (by decide) (by decide) _
    · exact exists_stripList_append rfl rfl (by decide) (by decide) _
  obtain ⟨cs, hcs⟩ := hends
  have hmetric : isMetricKey (canonicalKey (strip (key ++ suffix))) = true := by
    simp only [isMetricKey, endsWithAny, canonicalKey, hcs, String.toList_ofList, List.map_append,
      List.filter_append, List.any_eq_true, decide_eq_true_eq]
    simp only [List.mem_cons, List.not_mem_nil, or_false] at hsuffix
    rcases hsuffix with rfl | rfl
    · exact ⟨"length", by decide, _, rfl⟩
    · exact ⟨"count", by decide, _, rfl⟩
  simp only [itemClass]
  split_ifs
  · left
    simp [classify, hmetric]
  · exact .inr rfl

end Counters

/-! ## Retaken documents -/

section Retaken

variable {limit left : Nat} {j : Json} {key k : String} {output : Members}

/-- A further pass returns on the document, whatever it is inside of. -/
def Retaken (t : PrivacyTables) (limit left : Nat) (j : Json) : Prop :=
  ∀ seen key, Passes t (documents t) (limit + 1) left seen key j

/-- A further pass returns on every entry of a mapping. -/
def EntriesRetaken (t : PrivacyTables) (limit left : Nat) (output : Members) : Prop :=
  ∀ e ∈ output, ItemReturns t (documents t) (limit + 1) (fun _ => Retaken t limit left) (some e.1, e.2)

/-- A value that contains nothing. -/
def IsScalar (j : Json) : Prop := (documentView j).isMapping = false ∧ (documentView j).items? = none

/-- A value that contains nothing and is no number. -/
inductive IsWord : Json → Prop where
  | null : IsWord .null
  | bool (b : Bool) : IsWord (.bool b)
  | str (s : String) : IsWord (.str s)

theorem IsWord.isScalar (h : IsWord j) : IsScalar j := by
  cases h <;> exact ⟨rfl, rfl⟩

/-- A word can be written as a text. -/
theorem IsWord.isSome_str (h : IsWord j) (n : Nat) : ((documents t).str n j).isSome := by
  cases h with
  | null => rw [ObjectGraph.str_of_leaf rfl]; rfl
  | bool b => rw [ObjectGraph.str_of_leaf rfl]; rfl
  | str s => simp

theorem IsScalar.retaken (h : IsScalar j) : Retaken t limit left j :=
  fun _ key => passes_scalar key j h.1 h.2

theorem IsScalar.unrollsWithin (h : IsScalar j) : UnrollsWithin (documents t) (limit + 1) j :=
  unrollsWithin_scalar h.2 limit

theorem isScalar_num (n : JsonNumber) : IsScalar (.num n) := ⟨rfl, rfl⟩

/-- What is written of a value that contains nothing is the value. -/
theorem IsScalar.eq_of_writtenUnder (h : IsScalar j) {c : KeyClass} {w : Json}
    (hw : WrittenUnder (documents t) c j w) : w = j := by
  cases c with
  | identifier external =>
    rcases hw with ⟨items, hitems, -⟩ | ⟨rfl, -⟩
    · rw [view_documents, h.2] at hitems
      cases hitems
    · rfl
  | hash => exact hw
  | category => exact (innermost_scalar h.2).mp hw
  | _ => cases hw

theorem IsWord.itemReturns (h : IsWord j) (key : Option String) :
    ItemReturns t (documents t) (limit + 1) (fun _ => Retaken t limit left) (key, j) where
  unrolls _ := h.isScalar.unrollsWithin
  written _ hw := h.isScalar.eq_of_writtenUnder hw ▸ h.isSome_str _
  inner _ := h.isScalar.retaken

/-- A number under a key that no text is written for. -/
theorem num_itemReturns {n : JsonNumber} {key : Option String}
    (hkey : itemClass key = .metric ∨ itemClass key = .unknown) :
    ItemReturns t (documents t) (limit + 1) (fun _ => Retaken t limit left) (key, .num n) where
  unrolls _ := (isScalar_num n).unrollsWithin
  written _ hw := by rcases hkey with hkey | hkey <;> rw [hkey] at hw <;> cases hw
  inner _ := (isScalar_num n).retaken

theorem retaken_obj (h : EntriesRetaken t limit left output) : Retaken t limit (left + 1) (.obj output) := by
  intro seen key
  by_cases hseen : Json.obj output ∈ seen
  · exact passes_of_mem hseen
  · have hview : (documents t).view (.obj output) = .mapping (output.map fun e => (some e.1, e.2)) := rfl
    rw [passes_mapping hview hseen]
    intro item hitem
    obtain ⟨e, he, rfl⟩ := List.mem_map.mp (List.mem_of_mem_take hitem)
    exact ⟨(h e he).unrolls, (h e he).written, fun hclass => (h e he).inner hclass _ _⟩

/-- An item of a list is retaken, and is no number. -/
structure ItemRetaken (t : PrivacyTables) (limit left : Nat) (j : Json) : Prop where
  word : IsScalar j → IsWord j
  retaken : Retaken t limit left j

theorem IsWord.itemRetaken (h : IsWord j) : ItemRetaken t limit left j := ⟨fun _ => h, h.isScalar.retaken⟩

theorem retaken_arr {items : List Json} (h : ∀ j ∈ items, ItemRetaken t limit left j) :
    Retaken t limit (left + 1) (.arr items) := by
  intro seen key
  by_cases hseen : Json.arr items ∈ seen
  · exact passes_of_mem hseen
  · have hitems : ((documents t).view (.arr items)).items? = some items := rfl
    rw [passes_list hitems hseen]
    intro j hj
    have hitem := h j (List.mem_of_mem_take hj)
    exact ⟨fun hw => (hitem.word ⟨hw.1, hw.2.1⟩).isSome_str _, hitem.retaken _ _⟩

/-- A mapping or a list is no number. -/
theorem Retaken.itemRetaken_obj {output : Members} (h : Retaken t limit left (.obj output)) :
    ItemRetaken t limit left (.obj output) := by
  refine ⟨fun hscalar => ?_, h⟩
  cases hscalar.1

theorem itemRetaken_obj (h : EntriesRetaken t limit left output) :
    ItemRetaken t limit (left + 1) (.obj output) :=
  (retaken_obj h).itemRetaken_obj

theorem itemRetaken_arr {items : List Json} (h : ∀ j ∈ items, ItemRetaken t limit left j) :
    ItemRetaken t limit (left + 1) (.arr items) := by
  refine ⟨fun hscalar => ?_, retaken_arr h⟩
  cases hscalar.2

/-- Below the last level nothing is looked at. -/
theorem retaken_zero : Retaken t limit 0 j := by
  intro seen key
  constructor
  · intro w hw
    cases hw
  · intro w hw
    cases hw

theorem EntriesRetaken.insertEntry (h : EntriesRetaken t limit left output)
    (hj : ItemReturns t (documents t) (limit + 1) (fun _ => Retaken t limit left) (some key, j)) :
    EntriesRetaken t limit left (Dict.insertEntry key j output) := by
  intro e he
  rcases Dict.mem_insertEntry he with rfl | he
  · exact hj
  · exact h e he

theorem entriesRetaken_nil : EntriesRetaken t limit left [] := by
  simp [EntriesRetaken]

theorem retaken_binaryMetadata (content : List UInt8) : Retaken t limit left (binaryMetadata t content) := by
  have hsize : itemClass (some "size_bytes") = .metric := by decide +kernel
  cases left with
  | zero => exact retaken_zero
  | succ left =>
    apply retaken_obj
    simp only [EntriesRetaken, List.forall_mem_cons]
    exact ⟨(IsWord.str _).itemReturns _, num_itemReturns (.inl hsize), (IsWord.str _).itemReturns _,
      by simp⟩

/-- The entry that counts what was cut off. -/
theorem itemReturns_truncated (n : JsonNumber) :
    ItemReturns t (documents t) (limit + 1) (fun _ => Retaken t limit left)
      (some "truncated_count", .num n) := by
  have hcount : itemClass (some "truncated_count") = .metric := by decide +kernel
  exact num_itemReturns (.inl hcount)

theorem retaken_truncated (n : JsonNumber) : Retaken t limit left (.obj [("truncated_count", .num n)]) := by
  cases left with
  | zero => exact retaken_zero
  | succ left =>
    apply retaken_obj
    simp only [EntriesRetaken, List.forall_mem_cons]
    exact ⟨itemReturns_truncated n, by simp⟩

end Retaken

/-! ## What a pass returns -/

section Pass

variable {Ref : Type} {g : ObjectGraph Ref} {limit left : Nat} {r : Ref} {j : Json}
  {nested : Nested Ref} {key : String} {output output' : Members}

/-- What lies inside is returned as documents for further passes. -/
structure Nested.Retaken (t : PrivacyTables) (limit left : Nat) (nested : Nested Ref) : Prop where
  mapping : ∀ r j, nested.mapping r = some j → ItemRetaken t limit left j
  list : ∀ key r j, nested.list key r = some j → ItemRetaken t limit left j

theorem Nested.Retaken.container (hn : nested.Retaken t limit left)
    (h : nested.container g key r = some j) : ItemRetaken t limit left j := by
  unfold Nested.container at h
  split_ifs at h
  · exact hn.mapping r j h
  · exact hn.list key r j h

/-- Under these keys nothing is written as a text. -/
theorem not_writtenUnder {c : KeyClass} (hc : c ∈ [KeyClass.metric, .container, .sensitive, .binary]) :
    c ≠ .category ∧ ∀ v w, ¬ WrittenUnder (documents t) c v w := by
  simp only [List.mem_cons, List.not_mem_nil, or_false] at hc
  rcases hc with rfl | rfl | rfl | rfl <;> simp [WrittenUnder]

theorem Retaken.itemReturns (h : Retaken t limit left j)
    (hkey : itemClass (some key) ∈ [KeyClass.metric, .container, .sensitive, .binary]) :
    ItemReturns t (documents t) (limit + 1) (fun _ => Retaken t limit left) (some key, j) := by
  obtain ⟨hcategory, hwritten⟩ := @not_writtenUnder t _ hkey
  exact ⟨fun hclass => absurd hclass hcategory, fun w hw => absurd hw (hwritten _ w), fun _ => h⟩

/-- What a redacted value leaves is retaken, under a key that no text is written for. -/
theorem entriesRetaken_storeRedacted (h : EntriesRetaken t limit left output)
    (hkey : itemClass (some key) ∈ [KeyClass.metric, .container, .sensitive, .binary]) :
    EntriesRetaken t limit left (storeRedacted platform t g output key r) := by
  have hstr : ∀ s, EntriesRetaken t limit left (Dict.insertEntry key (.str s) output) :=
    fun s => h.insertEntry ((IsWord.str s).itemReturns _)
  have hcounter : ∀ {suffix : String}, suffix ∈ ["_length", "_count"] → ∀ n,
      ItemReturns t (documents t) (limit + 1) (fun _ => Retaken t limit left)
        (some (key ++ suffix), .num n) :=
    fun hsuffix _ => num_itemReturns (itemClass_counter hsuffix key)
  unfold storeRedacted
  split
  · exact h.insertEntry ((retaken_binaryMetadata _).itemReturns hkey)
  · split_ifs
    · exact hstr _
    all_goals
      exact ((hstr _).insertEntry (hcounter (by simp) _)).insertEntry ((IsWord.str _).itemReturns _)
  · split
    · exact (hstr _).insertEntry (hcounter (by simp) _)
    · exact hstr _

variable [DecidableEq Ref]

theorem isWord_sanitizeIdentifier {external : Bool}
    (h : sanitizeIdentifier platform t g external r = some j) : IsWord j := by
  obtain ⟨value, -, hj⟩ := Option.bind_eq_some_iff.mp h
  cases hj
  exact .str _

/-- The items of an identifier are words, and so is one that is no list. -/
theorem isWord_sanitizeIdentifierValue {external external' : Bool}
    (h : sanitizeIdentifierValue platform t g external r = some j) {w : Json}
    (hw : WrittenUnder (documents t) (.identifier external') j w) : IsWord w := by
  unfold sanitizeIdentifierValue at h
  split at h
  · obtain ⟨js, hjs, rfl⟩ := Option.map_eq_some_iff.mp h
    rcases hw with ⟨items, hitems, hw⟩ | ⟨-, hnone⟩
    · cases hitems
      obtain ⟨item, -, hitem⟩ := exists_of_mem_mapM hjs (List.mem_of_mem_take hw)
      exact isWord_sanitizeIdentifier hitem
    · cases hnone
  · have hword := isWord_sanitizeIdentifier h
    exact hword.isScalar.eq_of_writtenUnder hw ▸ hword

theorem isWord_sanitizeHash (h : sanitizeHash platform t g r = some j) : IsWord j := by
  obtain ⟨value, -, hj⟩ := Option.bind_eq_some_iff.mp h
  cases hj
  exact .str _

theorem isWord_categoryOf (h : categoryOf t g r = some j) : IsWord j := by
  unfold categoryOf at h
  split at h
  · cases h
    exact .null
  · obtain ⟨value, -, hj⟩ := Option.bind_eq_some_iff.mp h
    cases hj
    exact .str _

/-- A category value nests no deeper than the object it came from, and holds words. -/
theorem unrolls_sanitizeCategoryValue (h : sanitizeCategoryValue t g limit r = some j) :
    UnrollsWithin (documents t) limit j ∧ ∀ w, Innermost (documents t) w j → IsWord w := by
  induction limit generalizing r j with
  | zero => cases h
  | succ limit ih =>
    have hlist : ∀ {items : List Ref},
        ((items.take maxItems).mapM (sanitizeCategoryValue t g limit)).map Json.arr = some j →
          UnrollsWithin (documents t) (limit + 1) j ∧ ∀ w, Innermost (documents t) w j → IsWord w := by
      intro items hmap
      obtain ⟨js, hjs, rfl⟩ := Option.map_eq_some_iff.mp hmap
      have hitem : ∀ item, ListItem (documents t) item (.arr js) →
          UnrollsWithin (documents t) limit item ∧ ∀ w, Innermost (documents t) w item → IsWord w := by
        rintro item ⟨items', hitems, hmem⟩
        cases hitems
        obtain ⟨r', -, hr'⟩ := exists_of_mem_mapM hjs (List.mem_of_mem_take hmem)
        exact ih hr'
      refine ⟨fun item hmem => (hitem item hmem).1, fun w hw => ?_⟩
      obtain ⟨item, hmem, hw⟩ := (innermost_list rfl).mp hw
      exact (hitem item hmem).2 w hw
    have hword : ∀ {j}, IsWord j → UnrollsWithin (documents t) (limit + 1) j ∧
        ∀ w, Innermost (documents t) w j → IsWord w :=
      fun hj => ⟨hj.isScalar.unrollsWithin,
        fun w hw => (innermost_scalar hj.isScalar.2).mp hw ▸ hj⟩
    unfold sanitizeCategoryValue at h
    split at h
    · cases h
      exact hword (.bool _)
    · exact hlist h
    · exact hlist h
    · exact hword (isWord_categoryOf h)

theorem entriesRetaken_sanitizeField (hn : nested.Retaken t limit left)
    (ho : EntriesRetaken t limit left output) (hkey : itemClass (some key) = classify (canonicalKey key))
    (h : sanitizeField platform t g (limit + 1) nested output key r = some output') :
    EntriesRetaken t limit left output' := by
  unfold sanitizeField at h
  cases hclass : classify (canonicalKey key) with
  | metric =>
    simp only [hclass] at h
    rw [hclass] at hkey
    split at h
    · rename_i metric hmetric
      cases h
      unfold sanitizeMetric at hmetric
      split at hmetric <;> cases hmetric
      · exact ho.insertEntry ((IsWord.bool _).itemReturns _)
      · exact ho.insertEntry (num_itemReturns (.inl hkey))
    · cases h
      exact entriesRetaken_storeRedacted ho (by simp [hkey])
  | identifier external =>
    simp only [hclass] at h
    rw [hclass] at hkey
    obtain ⟨j, hj, hout⟩ := Option.bind_eq_some_iff.mp h
    cases hout
    refine ho.insertEntry ⟨by simp [hkey], fun w hw => ?_, by simp [hkey]⟩
    rw [hkey] at hw
    exact (isWord_sanitizeIdentifierValue hj hw).isSome_str _
  | hash =>
    simp only [hclass] at h
    obtain ⟨j, hj, hout⟩ := Option.bind_eq_some_iff.mp h
    cases hout
    exact ho.insertEntry ((isWord_sanitizeHash hj).itemReturns _)
  | category =>
    simp only [hclass] at h
    rw [hclass] at hkey
    obtain ⟨j, hj, hout⟩ := Option.bind_eq_some_iff.mp h
    cases hout
    obtain ⟨hunrolls, hwords⟩ := unrolls_sanitizeCategoryValue hj
    refine ho.insertEntry ⟨fun _ => hunrolls, fun w hw => ?_, by simp [hkey]⟩
    rw [hkey] at hw
    exact (hwords w hw).isSome_str _
  | container =>
    simp only [hclass] at h
    obtain ⟨j, hj, hout⟩ := Option.bind_eq_some_iff.mp h
    cases hout
    exact ho.insertEntry ((hn.container hj).retaken.itemReturns (by simp [hkey, hclass]))
  | sensitive =>
    simp only [hclass] at h
    cases h
    exact entriesRetaken_storeRedacted ho (by simp [hkey, hclass])
  | binary =>
    simp only [hclass] at h
    rw [hclass] at hkey
    split_ifs at h
    · obtain ⟨j, hj, hout⟩ := Option.bind_eq_some_iff.mp h
      cases hout
      split_ifs
      · exact ho.insertEntry ((hn.mapping r j hj).retaken.itemReturns (by simp [hkey]))
      · exact entriesRetaken_storeRedacted ho (by simp [hkey])
    · cases h
      exact entriesRetaken_storeRedacted ho (by simp [hkey])
  | unknown =>
    simp only [hclass] at h
    cases h
    exact ho

omit [DecidableEq Ref] in
theorem itemClass_strip {raw : String} (h : acceptedKey (strip raw) = true) :
    itemClass (some (strip raw)) = classify (canonicalKey (strip raw)) := by
  have hstrip : strip (strip raw) = strip raw := stripBy_stripBy raw
  simp only [itemClass, hstrip, h, if_true]

theorem entriesRetaken_sanitizeItem (hn : nested.Retaken t limit left)
    (ho : EntriesRetaken t limit left output) {item : Option String × Ref}
    (h : sanitizeItem platform t g (limit + 1) nested output item = some output') :
    EntriesRetaken t limit left output' := by
  unfold sanitizeItem at h
  split at h
  · cases h
    exact ho
  · simp only at h
    split_ifs at h with haccepted
    · exact entriesRetaken_sanitizeField hn ho (itemClass_strip haccepted) h
    · cases h
      exact ho

theorem itemRetaken_mappingBody (hn : nested.Retaken t limit left) {items : List (Option String × Ref)}
    (h : mappingBody platform t g (limit + 1) nested items = some j) :
    ItemRetaken t limit (left + 1) j := by
  obtain ⟨output, hfold, hout⟩ := Option.bind_eq_some_iff.mp h
  cases hout
  have hentries := foldlM_invariant (P := EntriesRetaken t limit left)
    (fun _ ho _ _ _ => entriesRetaken_sanitizeItem hn ho) entriesRetaken_nil hfold
  apply itemRetaken_obj
  unfold truncate
  split_ifs
  · exact hentries.insertEntry (itemReturns_truncated _)
  · exact hentries

theorem itemRetaken_sanitizeListItem (hn : nested.Retaken t limit left)
    (h : sanitizeListItem platform t g (limit + 1) nested key r = some j) : ItemRetaken t limit left j := by
  unfold sanitizeListItem at h
  split_ifs at h with hmapping hlist
  · exact hn.mapping r j h
  · exact hn.list key r j h
  · have hnone : (g.view r).items? = none := by simpa using hlist
    rw [sanitizeIdentifierValue, hnone] at h
    exact (isWord_sanitizeIdentifier h).itemRetaken
  · have hnone : (g.view r).items? = none := by simpa using hlist
    have hword : IsWord j := by
      unfold sanitizeCategoryValue at h
      split at h
      · cases h
        exact .bool _
      · rename_i items hview
        simp [hview, View.items?] at hnone
      · rename_i items hview
        simp [hview, View.items?] at hnone
      · exact isWord_categoryOf h
    exact hword.itemRetaken
  · split at h
    · cases h
      exact (retaken_binaryMetadata _).itemRetaken_obj
    · cases h
      exact (IsWord.str _).itemRetaken

theorem itemRetaken_listBody (hn : nested.Retaken t limit left) {items : List Ref}
    (h : listBody platform t g (limit + 1) nested key items = some j) :
    ItemRetaken t limit (left + 1) j := by
  obtain ⟨js, hjs, hout⟩ := Option.bind_eq_some_iff.mp h
  cases hout
  apply itemRetaken_arr
  intro j hj
  rcases List.mem_append.mp hj with hj | hj
  · obtain ⟨r, -, hr⟩ := exists_of_mem_mapM hjs hj
    exact itemRetaken_sanitizeListItem hn hr
  · unfold truncationItem at hj
    split_ifs at hj
    · obtain rfl := List.mem_singleton.mp hj
      exact (retaken_truncated _).itemRetaken_obj
    · cases hj

theorem retaken_below (left : Nat) (seen : List Ref) :
    (below platform t g (limit + 1) left seen).Retaken t limit left := by
  have hword : ∀ {left} s, ItemRetaken t limit left (.str s) := fun s => (IsWord.str s).itemRetaken
  induction left generalizing seen with
  | zero =>
    constructor
    · intro r j h
      cases h
      exact hword _
    · intro key r j h
      cases h
      exact hword _
  | succ left ih =>
    constructor
    · intro r j h
      change sanitizeMapping platform t g (limit + 1) (left + 1) seen r = some j at h
      unfold sanitizeMapping at h
      split at h
      · split_ifs at h
        · cases h
          exact hword _
        · exact itemRetaken_mappingBody (ih (r :: seen)) h
      · cases h
        exact hword _
    · intro key r j h
      change sanitizeList platform t g (limit + 1) key (left + 1) seen r = some j at h
      unfold sanitizeList at h
      split at h
      · split_ifs at h
        · cases h
          exact hword _
        · exact itemRetaken_listBody (ih (r :: seen)) h
      · cases h
        exact hword _

/-- A document the redactor returned is returned by every further pass. -/
theorem isSome_redactTraceMapping_again (h : redactTraceMapping platform t g (limit + 1) r = some j) :
    (redactTraceMapping platform t (documents t) (limit + 1) j).isSome := by
  unfold redactTraceMapping at h
  split_ifs at h with hmapping
  · have hretaken := ((retaken_below (maxDepth + 1) []).mapping r j h).retaken
    by_cases hj : ((documents t).view j).isMapping = true
    · exact (isSome_redactTraceMapping "" hj).mpr (hretaken [] "")
    · rw [redactTraceMapping, if_neg hj]
      rfl
  · cases h
    rfl

end Pass

end Privacy

end PersonalAssistant
