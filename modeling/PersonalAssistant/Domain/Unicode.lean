import PersonalAssistant.Lib.Regex
import PersonalAssistant.Lib.Civil

/-!
# Unicode tables

The character classes behind `\w` and `\d`, and the decomposition used to fold accents. On ASCII they are
what every version of the tables says.
-/
namespace PersonalAssistant

open Lib

/-- A letter, a digit or an underscore. -/
def isAsciiWord (c : Char) : Bool := c.isAlphanum || c == '_'

/-- How many decimal digits the interpreter converts between integers and texts. -/
def maxStrDigits : Nat := 4300

structure Unicode where
  /-- `\w`. -/
  isWord : Char → Bool
  /-- The value of a decimal digit, `\d`. -/
  decimal : Char → Option Nat
  /-- `unicodedata.normalize("NFKD", text)`. -/
  nfkd : String → String
  /-- Whether `unicodedata.combining` is not zero. -/
  combining : Char → Bool
  isWord_ascii : ∀ c : Char, c.toNat < 128 → isWord c = isAsciiWord c
  decimal_ascii : ∀ c : Char, c.toNat < 128 → decimal c = Civil.digitValue c

namespace Unicode

variable (u : Unicode)

def isDigit (c : Char) : Bool := (u.decimal c).isSome

/-- `int(text)` of a text of decimal digits. -/
def int (digits : List Char) : Nat := digits.foldl (fun n c => n * 10 + (u.decimal c).getD 0) 0

def boundary : Regex := .boundary u.isWord

def digit : Regex := .char u.isDigit

def space : Regex := .char isSpace

/-- Tables that know ASCII only. -/
def ascii : Unicode where
  isWord := isAsciiWord
  decimal := Civil.digitValue
  nfkd := id
  combining _ := false
  isWord_ascii _ _ := rfl
  decimal_ascii _ _ := rfl

end Unicode

end PersonalAssistant
