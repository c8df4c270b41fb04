import Mathlib.Order.Basic
import Mathlib.Order.Lattice
import Mathlib.Data.Nat.Basic
import Mathlib.Order.Nat
import PersonalAssistant.Lib.Binary64
import PersonalAssistant.Lib.Civil
import PersonalAssistant.Domain.Errors

/-!
# Timestamps

An `Instant` is a UTC timestamp of the host: microseconds since the first representable one, up to
the last. A `DateTime` is what callers hand in: a wall clock reading, with an offset when it is
timezone-aware. `canonicalUtc` is the gate between the two, and the only way arithmetic leaves the
range is an `OverflowError`.
-/
namespace PersonalAssistant

/-- Microseconds between `datetime.min` and `datetime.max`. -/
def maxMicros : Nat := 315537897599999999

def microsPerSecond : Nat := 1000000

/-- An aware UTC `datetime`. -/
structure Instant where
  micros : Nat
  le_max : micros ≤ maxMicros
deriving DecidableEq

namespace Instant

theorem micros_injective : Function.Injective micros := by
  rintro ⟨a, _⟩ ⟨b, _⟩ rfl; rfl

instance : LinearOrder Instant := LinearOrder.lift' micros micros_injective

theorem le_def {a b : Instant} : a ≤ b ↔ a.micros ≤ b.micros := Iff.rfl
theorem lt_def {a b : Instant} : a < b ↔ a.micros < b.micros := Iff.rfl

/-- A result of timestamp arithmetic, rejected outside the representable range. -/
def ofMicros (n : Int) : Except PyError Instant :=
  if h : 0 ≤ n ∧ n.toNat ≤ maxMicros then .ok ⟨n.toNat, h.2⟩
  else .error (.overflowError "date value out of range")

/-- `value + timedelta(seconds=seconds)`. -/
def addSeconds (t : Instant) (seconds : Int) : Except PyError Instant :=
  ofMicros (t.micros + seconds * microsPerSecond)

theorem micros_of_ofMicros {n : Int} {t : Instant} (h : ofMicros n = .ok t) :
    (t.micros : Int) = n := by
  unfold ofMicros at h
  split_ifs at h with hn
  cases h
  exact Int.toNat_of_nonneg hn.1

theorem ofMicros_error {n : Int} {e : PyError} (h : ofMicros n = .error e) :
    e = .overflowError "date value out of range" := by
  unfold ofMicros at h
  split_ifs at h
  cases h
  rfl

theorem le_of_addSeconds {t u : Instant} {n : Int} (hn : 0 ≤ n) (h : t.addSeconds n = .ok u) :
    t ≤ u := by
  have hu := micros_of_ofMicros h
  have hm : 0 ≤ n * (microsPerSecond : Int) := Int.mul_nonneg hn (by decide)
  rw [le_def]
  omega

/-- `timedelta.total_seconds()` of a positive number of microseconds. -/
def totalSeconds (micros : Nat) : Lib.Binary64 := Lib.Binary64.div micros microsPerSecond

/-- `value.isoformat()` of a UTC timestamp. -/
def isoformat (t : Instant) : String :=
  String.ofList (Lib.Civil.stamp 'T' ['+', '0', '0', ':', '0', '0'] t.micros)

/-- `str(value)` of a UTC timestamp. -/
def str (t : Instant) : String :=
  String.ofList (Lib.Civil.stamp ' ' ['+', '0', '0', ':', '0', '0'] t.micros)

/-- A UTC timestamp in a `model_dump(mode="json")` document. -/
def json (t : Instant) : String := String.ofList (Lib.Civil.stamp 'T' ['Z'] t.micros)

theorem stamp_injective (sep : Char) {suffix : List Char} (hs : suffix.head? ≠ some '.') :
    Function.Injective fun t : Instant => String.ofList (Lib.Civil.stamp sep suffix t.micros) := by
  intro a b h
  have hday : ∀ t : Instant, t.micros / Lib.Civil.microsPerDay < 3652059 := fun t => by
    have := t.le_max
    simp only [maxMicros, Lib.Civil.microsPerDay] at *
    omega
  have h' := String.ofList_injective h
  exact micros_injective (Lib.Civil.stamp_inj hs (hday a) (hday b) h')

theorem str_injective : Function.Injective str := stamp_injective ' ' (by decide)

theorem json_injective : Function.Injective json := stamp_injective 'T' (by decide)

end Instant

/-- A `datetime`: a wall clock reading and the UTC offset of its zone, absent when it is naive. -/
structure DateTime where
  wall : Instant
  offset : Option Int
deriving DecidableEq

namespace DateTime

/-- The reading on the UTC time line, possibly outside the range of `Instant`. -/
def utcMicros (d : DateTime) (offset : Int) : Int := d.wall.micros - offset

/-- `canonical_utc`: require an offset and convert to UTC. -/
def canonicalUtc (value : DateTime) (field : String) : Except PyError Instant :=
  match value.offset with
  | none => .error (.valueError (field ++ " must be timezone-aware"))
  | some offset => Instant.ofMicros (value.utcMicros offset)

/-- An aware timestamp as it is compared with others, on the UTC time line. -/
def awareMicros (value : DateTime) (field : String) : Except PyError Int :=
  match value.offset with
  | none => .error (.valueError (field ++ " must be timezone-aware"))
  | some offset => .ok (value.utcMicros offset)

/-- A timestamp whose zone already is UTC. -/
def ofInstant (t : Instant) : DateTime := ⟨t, some 0⟩

@[simp] theorem canonicalUtc_ofInstant (t : Instant) (field : String) :
    (ofInstant t).canonicalUtc field = .ok t := by
  have h := t.le_max
  simp [canonicalUtc, ofInstant, utcMicros, Instant.ofMicros, h]

end DateTime

end PersonalAssistant
