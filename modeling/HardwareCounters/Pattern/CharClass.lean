/-
# Classes of characters

Each position of a pattern takes the characters of a class.  Case does not matter, so a class is
read as the ranges of its own characters and of all that differ from them only in case.  A class that
is given by what it leaves out leaves these out, too.
-/
import HardwareCounters.Text.Blank
import HardwareCounters.Text.CaseTable
import HardwareCounters.Text.DecimalDigit

namespace HardwareCounters

/-- A part of a class of characters. -/
inductive ClassItem where
  | between (first last : Char) (h : first ≤ last)
  | digit (negated : Bool)
  | blank (negated : Bool)
  deriving DecidableEq, Repr

/-- The ranges, or what lies outside them. -/
def rangesOrOthers (negated : Bool) (ranges : List Text.CodeRange) : List Text.CodeRange :=
  if negated then Text.complement ranges else Text.joinRanges ranges

def ClassItem.ranges : ClassItem → List Text.CodeRange
  | .between first last _ => [(first.toNat, last.toNat)]
  | .digit negated => rangesOrOthers negated Text.decimalDigitRanges
  | .blank negated => rangesOrOthers negated Text.blankRanges

inductive CharClass where
  /-- Every character but the line feed. -/
  | any
  | only (c : Char)
  /-- A class with a letter of its own. -/
  | lettered (item : ClassItem)
  /-- A class in brackets. -/
  | oneOf (items : List ClassItem) (negated : Bool)
  deriving DecidableEq, Repr

def ClassItem.single (c : Char) : ClassItem := .between c c (Char.le_refl c)

namespace CharClass

/-- The code points of the characters that a class takes, in order. -/
def ranges : CharClass → List Text.CodeRange
  | .any => Text.complement [('\n'.toNat, '\n'.toNat)]
  | .only c => Text.caseClosure [(c.toNat, c.toNat)]
  | .lettered item => item.ranges
  | .oneOf items negated =>
    rangesOrOthers negated (Text.caseClosure (items.flatMap ClassItem.ranges))

/-- How deep a class is nested: brackets count, and so does a row of items inside them. -/
def nesting : CharClass → Nat
  | .oneOf [_] _ => 1
  | .oneOf _ _ => 2
  | _ => 0

end CharClass

end HardwareCounters
