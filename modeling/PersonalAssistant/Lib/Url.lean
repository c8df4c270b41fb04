import Mathlib.Data.List.DropRight
import Mathlib.Data.List.TakeDrop
import PersonalAssistant.Lib.Text

/-!
# Splitting URLs

The scheme and the host of a URL, as a lenient splitter reads them: leading control characters and blanks
are dropped, tabs and line ends disappear wherever they stand, and what does not look like a scheme or an
authority is left to the path. A URL written out as `scheme://host` and a path is read as it is written.
-/
namespace Lib

namespace Url

/-- Lower-casing and the checks of an authority that is not plain ASCII. -/
structure Tables where
  lower : String → String
  /-- An authority that is refused: a bad address in brackets, or a character that normalizes to a
  delimiter. -/
  refused : String → Bool
  lower_ascii : ∀ s : String, (∀ c ∈ s.toList, c.toNat < 128) →
    lower s = String.ofList (s.toList.map Char.toLower)

structure Parts where
  scheme : String
  netloc : String
deriving DecidableEq

/-- Stripped from the front of a URL. -/
def isLeading (c : Char) : Bool := c.toNat ≤ 0x20

/-- Removed wherever it stands. -/
def isRemoved (c : Char) : Bool := c == '\t' || c == '\r' || c == '\n'

def isSchemeChar (c : Char) : Bool := c.isAlphanum || c == '+' || c == '-' || c == '.'

/-- The first character behind an authority. -/
def endsNetloc (c : Char) : Bool := c == '/' || c == '?' || c == '#'

/-- The scheme in lower case, and the rest. -/
def splitScheme (cs : List Char) : List Char × List Char :=
  match cs.span (· != ':') with
  | (c :: pre, _ :: rest) =>
    if c.isAlpha && (c :: pre).all isSchemeChar then ((c :: pre).map Char.toLower, rest) else ([], cs)
  | _ => ([], cs)

def netlocOf : List Char → List Char
  | '/' :: '/' :: rest => rest.takeWhile fun c => !endsNetloc c
  | _ => []

/-- A character an authority may have without further checks. -/
def isPlain (c : Char) : Bool := c.toNat < 128 && !(c == '[' || c == ']')

variable (tables : Tables)

/-- `urlsplit(url)`, and `none` where it raises. -/
def urlsplit (url : String) : Option Parts :=
  let cs := (url.toList.dropWhile isLeading).filter fun c => !isRemoved c
  let netloc := netlocOf (splitScheme cs).2
  let opened := netloc.contains '['
  let closed := netloc.contains ']'
  if opened != closed then none
  else if !netloc.all isPlain && tables.refused (String.ofList netloc) then none
  else some ⟨String.ofList (splitScheme cs).1, String.ofList netloc⟩

/-- What stands behind the last `c`, or everything. -/
def afterLast (c : Char) (cs : List Char) : List Char := cs.rtakeWhile (· != c)

/-- The host of an authority, its zone kept as it is. -/
def Parts.hostname (parts : Parts) : Option String :=
  let hostinfo := afterLast '@' parts.netloc.toList
  let host :=
    match hostinfo.dropWhile (· != '[') with
    | _ :: bracketed => bracketed.takeWhile (· != ']')
    | [] => hostinfo.takeWhile (· != ':')
  if host = [] then none
  else some (tables.lower (String.ofList (host.takeWhile (· != '%'))) ++
    String.ofList (host.dropWhile (· != '%')))

/-! ## What a split gives -/

section Splits

variable {tables} {url : String} {parts : Parts} {c : Char}

theorem toNat_of_isSchemeChar (h : isSchemeChar c = true) : c.toNat < 123 := by
  delta isSchemeChar Char.isAlphanum Char.isAlpha Char.isUpper Char.isLower Char.isDigit at h
  simp only [Bool.or_eq_true, Bool.and_eq_true, decide_eq_true_eq, beq_iff_eq, UInt32.le_iff_toNat_le,
    ge_iff_le] at h
  rcases h with (((((⟨-, h⟩ | ⟨-, h⟩) | ⟨-, h⟩) | rfl) | rfl) | rfl)
  any_goals exact lt_of_le_of_lt h (by decide)
  all_goals decide

theorem toLower_ne_colon (h : isSchemeChar c = true) : c.toLower ≠ ':' := by
  have hall : ∀ n < 123, isSchemeChar (Char.ofNat n) = true → (Char.ofNat n).toLower ≠ ':' := by decide
  have hc := hall c.toNat (toNat_of_isSchemeChar h)
  rw [Char.ofNat_toNat] at hc
  exact hc h

theorem colon_notMem_splitScheme (cs : List Char) : ':' ∉ (splitScheme cs).1 := by
  unfold splitScheme
  split
  · split_ifs with hscheme
    · rw [Bool.and_eq_true, List.all_eq_true] at hscheme
      intro hmem
      obtain ⟨d, hd, heq⟩ := List.mem_map.mp hmem
      exact toLower_ne_colon (hscheme.2 d hd) heq
    · exact List.not_mem_nil
  · exact List.not_mem_nil

theorem slash_notMem_netlocOf (cs : List Char) : '/' ∉ netlocOf cs := by
  unfold netlocOf
  split
  · intro hmem
    have := List.mem_takeWhile_imp hmem
    revert this
    decide
  · exact List.not_mem_nil

theorem notMem_of_urlsplit (h : urlsplit tables url = some parts) :
    ':' ∉ parts.scheme.toList ∧ '/' ∉ parts.netloc.toList := by
  unfold urlsplit at h
  dsimp only at h
  split_ifs at h
  cases h
  simp only [String.toList_ofList]
  exact ⟨colon_notMem_splitScheme _, slash_notMem_netlocOf _⟩

/-- The host between its delimiters is a part of the text behind the last `@`. -/
theorem mem_hostinfo {hostinfo : List Char}
    (h : c ∈ match hostinfo.dropWhile (· != '[') with
      | _ :: bracketed => bracketed.takeWhile (· != ']')
      | [] => hostinfo.takeWhile (· != ':')) : c ∈ hostinfo := by
  split at h
  · rename_i d bracketed heq
    have hmem : c ∈ d :: bracketed := List.mem_cons_of_mem d (List.takeWhile_subset _ h)
    exact List.dropWhile_subset _ (heq ▸ hmem)
  · exact List.takeWhile_subset _ h

/-- Behind the last `@` of the authority, a host has no character that is not there. -/
theorem mem_hostname {host : String} (h : parts.hostname tables = some host)
    (hlower : ∀ s, c ∈ (tables.lower s).toList → c ∈ s.toList) (hc : c ∈ host.toList) :
    c ∈ parts.netloc.toList ∧ c ≠ '@' := by
  have hinfo : c ∈ afterLast '@' parts.netloc.toList → c ∈ parts.netloc.toList ∧ c ≠ '@' := by
    intro hmem
    obtain ⟨pre, hpre⟩ := List.rtakeWhile_suffix (· != '@') parts.netloc.toList
    have hat := List.mem_rtakeWhile_imp hmem
    exact ⟨hpre ▸ List.mem_append_right _ hmem, by simpa using hat⟩
  apply hinfo
  unfold Parts.hostname at h
  dsimp only at h
  split_ifs at h with hne
  rw [← Option.some.inj h, String.toList_append, String.toList_ofList, List.mem_append] at hc
  refine mem_hostinfo ?_
  obtain hc | hc := hc
  · have := hlower _ hc
    rw [String.toList_ofList] at this
    exact List.takeWhile_subset _ this
  · exact List.dropWhile_subset _ hc

end Splits

/-! ## Written out -/

section WrittenOut

variable {tables} {scheme host path : List Char} {c d : Char}

def isHostChar (c : Char) : Bool := c.isLower || c.isDigit || c == '.' || c == '-'

/-- A scheme and a host in lower case. -/
structure Plain (scheme host : List Char) : Prop where
  scheme_ne : scheme ≠ []
  scheme_lower : ∀ c ∈ scheme, c.isLower = true
  host_ne : host ≠ []
  host_chars : ∀ c ∈ host, isHostChar c = true

theorem ne_of_apply {p : Char → Bool} (hc : p c = true) (hd : p d = false) : c ≠ d := by
  rintro rfl
  rw [hc] at hd
  cases hd

theorem isHostChar_of_isLower (h : c.isLower = true) : isHostChar c = true := by simp [isHostChar, h]

theorem isAlpha_of_isLower (h : c.isLower = true) : c.isAlpha = true := by
  delta Char.isAlpha
  simp [h]

theorem toNat_of_isHostChar (h : isHostChar c = true) : 45 ≤ c.toNat ∧ c.toNat ≤ 122 := by
  delta isHostChar Char.isLower Char.isDigit at h
  simp only [Bool.or_eq_true, Bool.and_eq_true, decide_eq_true_eq, beq_iff_eq, UInt32.le_iff_toNat_le,
    ge_iff_le] at h
  rcases h with ((⟨h₁, h₂⟩ | ⟨h₁, h₂⟩) | rfl) | rfl
  · exact ⟨le_trans (by decide) h₁, h₂⟩
  · exact ⟨le_trans (by decide) h₁, le_trans h₂ (by decide)⟩
  · decide
  · decide

theorem toLower_of_isHostChar (h : isHostChar c = true) : c.toLower = c := by
  have hall : ∀ n < 123, isHostChar (Char.ofNat n) = true → (Char.ofNat n).toLower = Char.ofNat n := by
    decide
  have hlt := (toNat_of_isHostChar h).2
  have hc := hall c.toNat (by omega)
  rw [Char.ofNat_toNat] at hc
  exact hc h

/-- A lower-case text is its own lower case. -/
theorem lower_host (h : ∀ c ∈ host, isHostChar c = true) :
    tables.lower (String.ofList host) = String.ofList host := by
  rw [tables.lower_ascii _ fun c hc => by
    rw [String.toList_ofList] at hc
    exact lt_of_le_of_lt (toNat_of_isHostChar (h c hc)).2 (by decide), String.toList_ofList]
  congr 1
  exact (List.map_congr_left fun c hc => toLower_of_isHostChar (h c hc)).trans (List.map_id' host)

theorem takeWhile_append_cons {p : Char → Bool} {pre : List Char} {rest : List Char}
    (hpre : ∀ c ∈ pre, p c = true) (hrest : ∀ c ∈ rest.head?, p c = false) :
    (pre ++ rest).takeWhile p = pre ∧ (pre ++ rest).dropWhile p = rest := by
  induction pre with
  | nil =>
    cases rest with
    | nil => simp
    | cons c rest => simp [hrest c rfl]
  | cons c pre ih =>
    obtain ⟨ht, hd⟩ := ih fun d hd => hpre d (List.mem_cons_of_mem c hd)
    have hc := hpre c List.mem_cons_self
    exact ⟨by simp [hc, ht], by simp [hc, hd]⟩

theorem splitScheme_plain (h : Plain scheme host) (rest : List Char) :
    splitScheme (scheme ++ ':' :: rest) = (scheme, rest) := by
  have hne : ∀ c ∈ scheme, (c != ':') = true := fun c hc =>
    bne_iff_ne.mpr (ne_of_apply (isHostChar_of_isLower (h.scheme_lower c hc)) (by decide))
  obtain ⟨htake, hdrop⟩ := @takeWhile_append_cons (· != ':') scheme (':' :: rest) hne (by simp)
  obtain ⟨c, pre, hscheme⟩ := List.exists_cons_of_ne_nil h.scheme_ne
  have hlower := h.scheme_lower
  rw [splitScheme, List.span_eq_takeWhile_dropWhile, htake, hdrop, hscheme]
  rw [hscheme] at hlower
  have halpha : c.isAlpha = true := isAlpha_of_isLower (hlower c (by simp))
  have hall : (c :: pre).all isSchemeChar = true := by
    rw [List.all_eq_true]
    intro d hd
    simp [isSchemeChar, Char.isAlphanum, isAlpha_of_isLower (hlower d hd)]
  have hmap : (c :: pre).map Char.toLower = c :: pre :=
    (List.map_congr_left fun d hd => toLower_of_isHostChar (isHostChar_of_isLower (hlower d hd))).trans
      (List.map_id' _)
  simp only [halpha, hall, Bool.and_self, if_true, hmap]

/-- A URL written out is split as it is written. -/
theorem urlsplit_plain (h : Plain scheme host) (hpath : ∀ c ∈ path.head?, c = '/') :
    urlsplit tables (String.ofList (scheme ++ ':' :: '/' :: '/' :: (host ++ path))) =
      some ⟨String.ofList scheme, String.ofList host⟩ := by
  have hkept : ∀ c, isHostChar c = true → (!isRemoved c) = true := by
    intro c hc
    have := toNat_of_isHostChar hc
    simp only [isRemoved, Bool.not_eq_true', Bool.or_eq_false_iff, beq_eq_false_iff_ne]
    refine ⟨⟨?_, ?_⟩, ?_⟩ <;> rintro rfl <;> exact absurd this (by decide)
  have hleading : (scheme ++ ':' :: '/' :: '/' :: (host ++ path)).dropWhile isLeading =
      scheme ++ ':' :: '/' :: '/' :: (host ++ path) := by
    obtain ⟨c, pre, hscheme⟩ := List.exists_cons_of_ne_nil h.scheme_ne
    have hc := toNat_of_isHostChar (isHostChar_of_isLower (h.scheme_lower c (by simp [hscheme])))
    have hnot : isLeading c = false := by
      simp only [isLeading, decide_eq_false_iff_not]
      omega
    rw [hscheme, List.cons_append, List.dropWhile_cons_of_neg (by simp [hnot])]
  have hfilter : (scheme ++ ':' :: '/' :: '/' :: (host ++ path)).filter (fun c => !isRemoved c) =
      scheme ++ ':' :: '/' :: '/' :: (host ++ path.filter fun c => !isRemoved c) := by
    rw [List.filter_append, List.filter_eq_self.mpr fun c hc =>
      hkept c (isHostChar_of_isLower (h.scheme_lower c hc))]
    simp only [List.filter_cons, List.filter_append, List.filter_eq_self.mpr fun c hc =>
      hkept c (h.host_chars c hc)]
    rfl
  have hhead : ∀ c ∈ (path.filter fun c => !isRemoved c).head?, (!endsNetloc c) = false := by
    cases path with
    | nil => simp
    | cons c path =>
      obtain rfl := hpath c rfl
      have hslash : (!isRemoved '/') = true := by decide
      rw [List.filter_cons, if_pos hslash]
      simp [endsNetloc]
  have hnetloc : netlocOf ('/' :: '/' :: (host ++ path.filter fun c => !isRemoved c)) = host := by
    refine (takeWhile_append_cons (fun c hc => ?_) hhead).1
    have hchar := h.host_chars c hc
    simp only [endsNetloc, Bool.not_eq_true', Bool.or_eq_false_iff, beq_eq_false_iff_ne]
    exact ⟨⟨ne_of_apply hchar (by decide), ne_of_apply hchar (by decide)⟩, ne_of_apply hchar (by decide)⟩
  have hbracket : ∀ d, isHostChar d = false → host.contains d = false := by
    intro d hd
    rw [← Bool.not_eq_true, List.contains_iff_mem]
    exact fun hmem => ne_of_apply (h.host_chars d hmem) hd rfl
  have hplain : host.all isPlain = true := by
    rw [List.all_eq_true]
    intro c hc
    have hchar := h.host_chars c hc
    have hlt : c.toNat < 128 := lt_of_le_of_lt (toNat_of_isHostChar hchar).2 (by decide)
    have h₁ : c ≠ '[' := ne_of_apply hchar (by decide)
    have h₂ : c ≠ ']' := ne_of_apply hchar (by decide)
    simp [isPlain, hlt, h₁, h₂]
  simp only [urlsplit, String.toList_ofList, hleading, hfilter, splitScheme_plain h, hnetloc,
    hbracket '[' (by decide), hbracket ']' (by decide), hplain]
  simp

theorem hostname_plain (h : Plain scheme host) :
    Parts.hostname tables ⟨String.ofList scheme, String.ofList host⟩ = some (String.ofList host) := by
  have hwhile : ∀ d, isHostChar d = false →
      host.takeWhile (· != d) = host ∧ host.dropWhile (· != d) = [] := by
    intro d hd
    have hne : ∀ c ∈ host, (c != d) = true := fun c hc =>
      bne_iff_ne.mpr (ne_of_apply (h.host_chars c hc) hd)
    simpa using @takeWhile_append_cons (· != d) host [] hne (by simp)
  have hat : afterLast '@' host = host := by
    rw [afterLast, List.rtakeWhile_eq_self_iff]
    exact fun c hc => bne_iff_ne.mpr (ne_of_apply (h.host_chars c hc) (by decide))
  simp only [Parts.hostname, String.toList_ofList, hat, (hwhile '[' (by decide)).2,
    (hwhile ':' (by decide)).1, (hwhile '%' (by decide)).1, (hwhile '%' (by decide)).2, h.host_ne,
    lower_host h.host_chars, if_false]
  simp

end WrittenOut

end Url

end Lib
