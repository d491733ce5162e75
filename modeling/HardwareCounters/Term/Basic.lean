/-
# Terms

An event of a PMU is spelled as a list of terms between commas.  A term is a key, or a key and a
value around the first `=`.

* `Term.parseList?` reads a list of terms; it is refused exactly where a part between commas is
  empty or starts with `=`, apart from one comma that may follow the last term or stand alone;
* `Term.text` writes a term.
-/
import HardwareCounters.Numeral

namespace HardwareCounters

structure Term where
  key : Text
  value? : Option Text
  deriving DecidableEq, Repr

namespace Term

/-! ## 1. Single terms -/

def text (term : Term) : Text :=
  match term.value? with
  | none => term.key
  | some value => term.key ++ '=' :: value

/-- The number that a term stands for: 1 if it has no value. -/
def number (term : Term) : Except NumberError Word :=
  match term.value? with
  | none => .ok 1
  | some value => Numeral.readWord value

/-- A part of a list is a term if it has a key in front of the first `=`. -/
def isTerm : Text → Bool
  | [] => false
  | c :: _ => c != '='

/-- The term that a part of a list spells, without the blanks around key and value. -/
def ofPart (part : Text) : Term :=
  match Text.cut? '=' part with
  | none => ⟨Text.trim part, none⟩
  | some (key, value) => ⟨Text.trim key, some (Text.trim value)⟩

/-! ## 2. Lists of terms -/

/-- The text without one comma at its end, if there is one. -/
def dropFinalComma (t : Text) : Text := (Text.dropLast? ',' t).getD t

/-- The terms of a text whose ends carry no blanks. -/
def parseTrimmed? (t : Text) : Option (List Term) :=
  if t = [] ∨ t = [','] then some []
  else
    let parts := Text.splitOn ',' (dropFinalComma t)
    if parts.all isTerm then some (parts.map ofPart) else none

def parseList? (t : Text) : Option (List Term) := parseTrimmed? (Text.trim t)

end Term

end HardwareCounters
