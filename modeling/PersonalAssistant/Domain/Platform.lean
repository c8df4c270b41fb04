import Mathlib.Data.List.Nodup
import Mathlib.Data.Set.Function
import PersonalAssistant.Lib.Json
import PersonalAssistant.Domain.Permissions

/-!
# The platform the program runs on

What the program takes from its surroundings and the model leaves open: the hash function, the zone
database, the Unicode tables and how a validated model reads timestamps and floats. Generated identifiers are values of `Uuid`, the hexadecimal text of
a random UUID.
-/
namespace PersonalAssistant

open Lib

def isHexChar (c : Char) : Bool := ('0' ≤ c && c ≤ '9') || ('a' ≤ c && c ≤ 'f')

def isHexText (length : Nat) (s : String) : Bool :=
  s.toList.all isHexChar && s.toList.length == length

/-- The hexadecimal text of a SHA-256 digest. -/
structure Digest where
  text : String
  hex : isHexText 64 text = true
deriving DecidableEq

/-- `uuid4().hex`. -/
structure Uuid where
  hex : String
  isHex : isHexText 32 hex = true
deriving DecidableEq

theorem Uuid.hex_injective : Function.Injective Uuid.hex := by
  rintro ⟨a, _⟩ ⟨b, _⟩ rfl; rfl

theorem Digest.text_injective : Function.Injective Digest.text := by
  rintro ⟨a, _⟩ ⟨b, _⟩ rfl; rfl

/-- Hash, zone database, Unicode tables and field readers. -/
structure Platform where
  /-- `hashlib.sha256(text.encode("utf-8")).hexdigest()`. -/
  sha256 : String → Digest
  /-- Whether `ZoneInfo(name)` finds a zone. -/
  isZone : String → Bool
  /-- `unicodedata.normalize("NFC", text)`. -/
  nfc : String → String
  /-- `text.casefold()`. -/
  casefold : String → String
  /-- A timestamp field read from a JSON value. -/
  readDatetime : Json → Option DateTime
  /-- A float field read from a JSON value that is not a number. -/
  readFloat : Json → Option JsonNumber
  /-- Whether a number lies between 0 and 1. -/
  inUnitInterval : JsonNumber → Bool

/-- A model reads back the timestamps it was given as text. -/
def Platform.ReadsDatetimes (platform : Platform) : Prop :=
  ∀ t : Instant, platform.readDatetime (.str t.isoformat) = some (.ofInstant t)

/-- `json.dumps(value, sort_keys=True, default=str, separators=(",", ":"))`. -/
def jsonText (value : Json) : String := Json.dumps Json.escapeAscii value

theorem jsonText_injective : Function.Injective jsonText :=
  Json.dumps_injective Json.prefixCode_escapeAscii

/-- `_fingerprint` of the stores. -/
def Platform.fingerprint (platform : Platform) (value : Json) : Digest :=
  platform.sha256 (jsonText value)

theorem isHexChar_not_isSpace {c : Char} (h : isHexChar c = true) : isSpace c = false := by
  simp only [isHexChar, Bool.or_eq_true, Bool.and_eq_true, decide_eq_true_eq, Char.le_def,
    UInt32.le_iff_toNat_le] at h
  have hc : (48 ≤ c.toNat ∧ c.toNat ≤ 57) ∨ (97 ≤ c.toNat ∧ c.toNat ≤ 102) := h
  simp only [isSpace, isWhiteSpace, Bool.or_eq_false_iff, Bool.and_eq_false_iff, beq_eq_false_iff_ne,
    decide_eq_false_iff_not]
  omega

theorem Digest.not_isSpace (d : Digest) : ∀ c ∈ d.text.toList, isSpace c = false := by
  intro c hc
  have h := d.hex
  simp only [isHexText, Bool.and_eq_true, List.all_eq_true] at h
  exact isHexChar_not_isSpace (h.1 c hc)

theorem Uuid.not_isSpace (u : Uuid) : ∀ c ∈ u.hex.toList, isSpace c = false := by
  intro c hc
  have h := u.isHex
  simp only [isHexText, Bool.and_eq_true, List.all_eq_true] at h
  exact isHexChar_not_isSpace (h.1 c hc)

/-- A generated identifier: a literal prefix and the hexadecimal text. -/
theorem trimmed_append_of_not_isSpace {a b : String} (ha : ∀ c ∈ a.toList, isSpace c = false)
    (hb : ∀ c ∈ b.toList, isSpace c = false) : Trimmed (a ++ b) := by
  refine stripBy_eq_self_of_all fun c hc => isWhiteSpace_eq_false_of_isSpace ?_
  rw [String.toList_append, List.mem_append] at hc
  exact hc.elim (ha c) (hb c)

/-! ## A platform to evaluate on -/

def Digest.zero : Digest := ⟨String.ofList (List.replicate 64 '0'), by decide⟩

/-- The hexadecimal digits of a number. -/
def hexDigits (length n : Nat) : List Char :=
  (List.range length).map fun i => Nat.digitChar (n / 16 ^ (length - 1 - i) % 16)

theorem isHexChar_digitChar : ∀ d < 16, isHexChar (Nat.digitChar d) = true := by decide

/-- The digest a number spells. -/
def Digest.ofNat (n : Nat) : Digest where
  text := String.ofList (hexDigits 64 n)
  hex := by
    have hdigits : ∀ c ∈ hexDigits 64 n, isHexChar c = true := by
      intro c hc
      obtain ⟨i, -, rfl⟩ := List.mem_map.mp hc
      exact isHexChar_digitChar _ (Nat.mod_lt _ (by decide))
    have hlength : (hexDigits 64 n).length = 64 := by simp [hexDigits]
    simpa [isHexText, hlength] using hdigits

/-- Numbers with different digits spell different digests. -/
theorem Digest.nodup_ofNat {ns : List Nat} (h : (ns.map (hexDigits 64)).Nodup) :
    (ns.map Digest.ofNat).Nodup := by
  refine List.Nodup.of_map (fun d => d.text.toList) ?_
  have hmap : (ns.map Digest.ofNat).map (fun d => d.text.toList) = ns.map (hexDigits 64) := by
    simp [Digest.ofNat, Function.comp_def]
  rwa [hmap]

/-- The timestamps of `isoformat`, read back. -/
def readIsoformat : Json → Option DateTime
  | .str s =>
    match Civil.readStamp 'T' ['+', '0', '0', ':', '0', '0'] s.toList with
    | some n => if h : n ≤ maxMicros then some (.ofInstant ⟨n, h⟩) else none
    | none => none
  | _ => none

/-- Known digests, two zones, and texts that are already in normal form and lower case. -/
def Platform.ofTable (digests : List (String × Digest)) : Platform where
  sha256 text := (digests.lookup text).getD Digest.zero
  isZone name := name = "UTC" || name = "America/Bogota"
  nfc := id
  casefold := id
  readDatetime := readIsoformat
  readFloat _ := none
  inUnitInterval n := n.text.toList.head? = some '0'

/-- A table without repeated digests has no collision among its texts. -/
theorem Platform.injOn_ofTable {digests : List (String × Digest)}
    (h : (digests.map Prod.snd).Nodup) :
    Set.InjOn (Platform.ofTable digests).sha256 {t | t ∈ digests.map Prod.fst} := by
  have hfind : ∀ t ∈ digests.map Prod.fst, (t, (Platform.ofTable digests).sha256 t) ∈ digests := by
    intro t ht
    obtain ⟨e, he, rfl⟩ := List.mem_map.mp ht
    cases hl : digests.lookup e.1 with
    | none => exact absurd rfl (bne_iff_ne.mp (List.lookup_eq_none_iff.mp hl e he))
    | some v =>
      have hsha : (Platform.ofTable digests).sha256 e.1 = v := by simp [Platform.ofTable, hl]
      obtain ⟨l₁, l₂, hsplit, -⟩ := List.lookup_eq_some_iff.mp hl
      rw [hsha, hsplit]
      simp
  intro a ha b hb hab
  have hpair := List.inj_on_of_nodup_map h (hfind a ha) (hfind b hb) hab
  exact congrArg Prod.fst hpair

/-- The same for texts and their digests in two lists. -/
theorem Platform.injOn_ofNumbers {texts : List String} {numbers : List Nat}
    (hlength : texts.length = numbers.length) (h : (numbers.map Digest.ofNat).Nodup) :
    Set.InjOn (Platform.ofTable (texts.zip (numbers.map .ofNat))).sha256 {t | t ∈ texts} := by
  have hlength' : texts.length = (numbers.map Digest.ofNat).length := by simpa using hlength
  have hdigests : ((texts.zip (numbers.map Digest.ofNat)).map Prod.snd).Nodup := by
    rwa [List.map_snd_zip hlength'.ge]
  have hinj := Platform.injOn_ofTable hdigests
  rwa [List.map_fst_zip hlength'.le] at hinj

def Principal.sample : Principal :=
  .forTest ⟨"user-1", by decide, by decide, by decide⟩ ⟨"tenant-1", by decide, by decide, by decide⟩ .P6

end PersonalAssistant
