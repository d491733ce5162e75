/-
# Search patterns

A pattern is a regular expression over classes of characters, with the two ends of a text as further
symbols.

* `Pattern.nesting` is how deep its parts are nested, and a pattern must not be nested deeper than
  `Pattern.maxNesting`.
-/
import HardwareCounters.Pattern.CharClass

namespace HardwareCounters

/-- A regular expression. -/
inductive Pattern where
  | empty
  | char (charClass : CharClass)
  /-- The start of the text. -/
  | start
  /-- The end of the text. -/
  | finish
  /-- A pattern in parentheses. -/
  | group (body : Pattern)
  | seq (first second : Pattern)
  | alt (first second : Pattern)
  /-- A pattern `least` times, and up to `more?` times more. -/
  | repeated (body : Pattern) (least : Nat) (more? : Option Nat)
  deriving DecidableEq, Repr

namespace Pattern

/-! ## 1. Rows and choices -/

def sequence : List Pattern → Pattern
  | [] => .empty
  | [p] => p
  | p :: ps => .seq p (sequence ps)

/-- The alternatives `choices` and, as the last one, `last`. -/
def alternation (choices : List Pattern) (last : Pattern) : Pattern := choices.foldr .alt last

def isSeq : Pattern → Bool
  | .seq _ _ => true
  | _ => false

def isAlt : Pattern → Bool
  | .alt _ _ => true
  | _ => false

/-! ## 2. Nesting -/

/-- How deep a pattern is nested.  A row of patterns counts once, however long it is, and so does a
choice. -/
def nesting : Pattern → Nat
  | .empty | .start | .finish => 0
  | .char charClass => charClass.nesting
  | .group body => body.nesting + 1
  | .seq first second =>
    max (first.nesting + 1) (if second.isSeq then second.nesting else second.nesting + 1)
  | .alt first second =>
    max (first.nesting + 1) (if second.isAlt then second.nesting else second.nesting + 1)
  | .repeated body _ _ => body.nesting + 1

/-- The deepest nesting of a pattern that is accepted. -/
def maxNesting : Nat := 250

/-! ## 3. Matches of no characters -/

/-- Nothing but the empty text can match the pattern. -/
def takesNothing : Pattern → Bool
  | .empty | .start | .finish => true
  | .char _ => false
  | .group body => body.takesNothing
  | .seq first second => first.takesNothing && second.takesNothing
  | .alt first second => first.takesNothing && second.takesNothing
  | .repeated body least more? => body.takesNothing || (least == 0 && more? == some 0)

/-- The empty text can match the pattern, if it stands at the right spot. -/
def mayTakeNothing : Pattern → Bool
  | .empty | .start | .finish => true
  | .char _ => false
  | .group body => body.mayTakeNothing
  | .seq first second => first.mayTakeNothing && second.mayTakeNothing
  | .alt first second => first.mayTakeNothing || second.mayTakeNothing
  | .repeated body least _ => body.mayTakeNothing || least == 0

end Pattern

end HardwareCounters
