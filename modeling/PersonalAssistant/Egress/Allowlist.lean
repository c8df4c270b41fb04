import PersonalAssistant.Domain.Errors
import PersonalAssistant.Lib.Url

/-!
# The egress allowlist

A target is allowed when its scheme and host are exactly one of the entries.
-/
namespace PersonalAssistant

open Lib

variable (tables : Url.Tables)

/-- `_url_authority`. -/
def urlAuthority (url : String) : Option (String × String) :=
  match Url.urlsplit tables (strip url) with
  | none => none
  | some parts =>
    let scheme := tables.lower (strip parts.scheme)
    let host := tables.lower (strip ((parts.hostname tables).getD ""))
    if scheme = "" ∨ host = "" then none else some (scheme, host)

structure EgressAllowlist where
  entries : List (String × String)

namespace EgressAllowlist

variable (allowlist : EgressAllowlist)

def allows (url : String) : Bool :=
  match urlAuthority tables url with
  | none => false
  | some authority => allowlist.entries.contains authority

/-- `EgressNotAllowedError`. -/
def notAllowed (host : String) : PyError :=
  .assistant .guardrailBlocked
    ("egress target host is not allowlisted: " ++ if host = "" then "unknown" else host) none

def require (url : String) : Except PyError Unit :=
  if allowlist.allows tables url then .ok ()
  else .error (notAllowed (((urlAuthority tables url).map Prod.snd).getD ""))

variable {tables allowlist}

theorem require_eq_ok {url : String} : allowlist.require tables url = .ok () ↔ allowlist.allows tables url = true := by
  unfold require
  split_ifs with h <;> simp [h]

theorem allows_iff {url : String} : allowlist.allows tables url = true ↔
    ∃ target ∈ allowlist.entries, urlAuthority tables url = some target := by
  unfold allows
  cases urlAuthority tables url with
  | none => simp
  | some authority => simp

/-- Whether a target is allowed depends on its scheme and host only. -/
theorem allows_congr {url url' : String} (h : urlAuthority tables url = urlAuthority tables url') :
    allowlist.allows tables url = allowlist.allows tables url' := by
  unfold allows
  rw [h]

end EgressAllowlist

/-! ## URLs written out -/

variable {tables} {scheme host path : List Char}

theorem isSpace_of_isHostChar {c : Char} (h : Url.isHostChar c = true) : isSpace c = false := by
  have hrange := Url.toNat_of_isHostChar h
  simp only [isSpace, isWhiteSpace, Bool.or_eq_false_iff, Bool.and_eq_false_iff, beq_eq_false_iff_ne,
    decide_eq_false_iff_not]
  omega

theorem strip_of_isHostChar {cs : List Char} (h : ∀ c ∈ cs, Url.isHostChar c = true) :
    strip (String.ofList cs) = String.ofList cs := by
  refine stripBy_eq_self_of_all fun c hc => ?_
  rw [String.toList_ofList] at hc
  exact isSpace_of_isHostChar (h c hc)

/-- The authority of a URL written out is its scheme and host, whatever its path. -/
theorem urlAuthority_plain (h : Url.Plain scheme host) (hpath : ∀ c ∈ path.head?, c = '/') :
    urlAuthority tables (String.ofList (scheme ++ ':' :: '/' :: '/' :: (host ++ path))) =
      some (String.ofList scheme, String.ofList host) := by
  have hscheme : ∀ c ∈ scheme, Url.isHostChar c = true := fun c hc =>
    Url.isHostChar_of_isLower (h.scheme_lower c hc)
  obtain ⟨path', hpath', hstrip⟩ : ∃ path', (∀ c ∈ path'.head?, c = '/') ∧
      strip (String.ofList (scheme ++ ':' :: '/' :: '/' :: (host ++ path))) =
        String.ofList (scheme ++ ':' :: '/' :: '/' :: (host ++ path')) := by
    refine ⟨path.rdropWhile isSpace, ?_, ?_⟩
    · intro c hc
      obtain ⟨rest, hrest⟩ := List.rdropWhile_prefix isSpace path
      refine hpath c ?_
      rw [← hrest, List.head?_append, Option.mem_def.mp hc]
      rfl
    · have happend : scheme ++ ':' :: '/' :: '/' :: (host ++ path) =
          (scheme ++ ':' :: '/' :: '/' :: host) ++ path := by simp
      rw [strip, stripBy, String.toList_ofList, happend, stripList_append (by simp)]
      · simp
      · obtain ⟨c, rest, hcons⟩ := List.exists_cons_of_ne_nil h.scheme_ne
        simpa [hcons] using isSpace_of_isHostChar (hscheme c (by simp [hcons]))
      · intro c hc
        have hlast : c ∈ host.getLast? := by
          obtain ⟨d, rest, hcons⟩ := List.exists_cons_of_ne_nil h.host_ne
          simpa [hcons, List.getLast?_append] using hc
        exact isSpace_of_isHostChar (h.host_chars c (List.mem_of_getLast? hlast))
  have hne : ∀ {cs : List Char}, cs ≠ [] → String.ofList cs ≠ "" := by
    intro cs hcs heq
    exact hcs (String.ofList_injective heq)
  rw [urlAuthority, hstrip, Url.urlsplit_plain h hpath']
  simp [Url.hostname_plain h, strip_of_isHostChar hscheme, strip_of_isHostChar h.host_chars,
    Url.lower_host hscheme, Url.lower_host h.host_chars, hne h.scheme_ne, hne h.host_ne]

end PersonalAssistant
