/-
# The footprint of a pattern

To be searched for, a pattern is turned into two automata over bytes.  One reads a text forwards and
notes where groups start and end, the other reads it backwards.  How much memory they take follows
from the pattern alone, and a pattern whose automata take too much is refused.

* `Footprint.ofClass`: the automata of a class of characters;
* `Pattern.footprint`: those of a pattern;
* `Pattern.isAcceptable`: the pattern is neither too large nor nested too deeply.
-/
import HardwareCounters.Pattern.Basic
import HardwareCounters.Text.ByteForm

namespace HardwareCounters

/-! ## 1. States and steps -/

/-- The bytes of memory that two automata take. -/
structure Footprint where
  forwards : Nat
  backwards : Nat
  deriving DecidableEq, Repr

namespace Footprint

def both (bytes : Nat) : Footprint := ⟨bytes, bytes⟩

def add (a b : Footprint) : Footprint := ⟨a.forwards + b.forwards, a.backwards + b.backwards⟩

instance : Add Footprint := ⟨add⟩

def scale (n : Nat) (a : Footprint) : Footprint := ⟨n * a.forwards, n * a.backwards⟩

def stateBytes : Nat := 32

def stepBytes : Nat := 8

/-- The bytes of a step to one of several states without reading a byte. -/
def forkBytes : Nat := 4

/-- Some states, which have some forks between them. -/
def states (count forks : Nat) : Footprint := both (count * stateBytes + forks * forkBytes)

/-! ## 2. Characters -/

/-- A single character: one state for each byte. -/
def ofCharacter (row : Text.ByteRow) : Footprint := states row.length 0

/-- A class of ASCII characters: a state with a step for each range, and one behind it. -/
def ofAsciiClass (ranges : List Text.CodeRange) : Footprint :=
  both (2 * stateBytes + ranges.length * stepBytes)

/-- A class with other characters.  Forwards there is a state for each set of rows that may follow,
backwards one for each byte range with those before it. -/
def ofRows (rows : List Text.ByteRow) : Footprint where
  forwards := (Text.innerNodes Text.longestForm rows).eraseDups.foldl
    (fun n node => n + stateBytes + (Text.branches node).length * stepBytes) stateBytes
  backwards := (2 + Text.edgeCount Text.longestForm rows) * stateBytes + rows.length * forkBytes

def isSingle : List Text.CodeRange → Bool
  | [range] => range.1 == range.2
  | _ => false

/-- The automata of a class of characters. -/
def ofClass (ranges : List Text.CodeRange) : Footprint :=
  if isSingle ranges then ((Text.byteRows ranges).head?.map ofCharacter).getD (states 1 0)
  else if ranges.isEmpty then states 1 0
  else if ranges.all (·.2 < 128) then ofAsciiClass ranges
  else ofRows (Text.byteRows ranges)

/-! ## 3. Repetitions -/

/-- The automata of a repetition, by those of its body. -/
def ofRepetition (body : Footprint) (mayTakeNothing : Bool) (least : Nat) :
    Option Nat → Footprint
  | none =>
    if least = 0 then
      if mayTakeNothing then body + states 3 4 else body + states 1 2
    else scale least body + states 1 2
  | some more =>
    if more = 0 then scale least body
    else if least = 0 ∧ more = 1 then body + states 2 2
    else
      (if least = 0 then states 1 0 else scale least body) + states 1 0 +
        scale more (body + states 1 2)

end Footprint

/-! ## 4. Patterns -/

namespace Pattern

/-- The pattern leaves no trace in a row of patterns. -/
def isVoid : Pattern → Bool
  | .empty => true
  | .seq first second => first.isVoid && second.isVoid
  | .repeated body least more? => if least = 0 then more? == some 0 else body.isVoid
  | _ => false

/-- The code points of a pattern that is a single class, or a choice between single characters or
between larger classes, and whether it was made from single characters. -/
def singleClass? : Pattern → Option (Bool × List Text.CodeRange)
  | .char charClass => some (Footprint.isSingle charClass.ranges, charClass.ranges)
  | .repeated body 1 (some 0) => body.singleClass?
  | .alt first second =>
    match first.singleClass?, second.singleClass? with
    | some (single, ranges), some (otherSingle, more) =>
      if single = otherSingle then some (single, Text.joinRanges (ranges ++ more)) else none
    | _, _ => none
  | _ => none

/-- The bounds of a repetition.  What takes nothing is repeated at most once. -/
def boundsFor (takesNothing : Bool) (least : Nat) (more? : Option Nat) : Nat × Option Nat :=
  if ¬ takesNothing then (least, more?)
  else if least = 0 then (0, some (min (more?.getD 1) 1))
  else (1, some 0)

/-- The automata of a pattern.  `inChoice` says that it is the rest of a choice that is not a single
class. -/
def footprintIn (inChoice : Bool) : Pattern → Footprint
  | .empty | .start | .finish => .states 1 0
  | .char charClass => .ofClass charClass.ranges
  | .group body =>
    let inner := body.footprintIn false
    ⟨inner.forwards + 2 * Footprint.stateBytes, inner.backwards⟩
  | .seq first second =>
    if first.isVoid then second.footprintIn false
    else if second.isVoid then first.footprintIn false
    else first.footprintIn false + second.footprintIn false
  | .alt first second =>
    match if inChoice then none else (alt first second).singleClass? with
    | some (_, ranges) => .ofClass ranges
    | none =>
      first.footprintIn false + .states 0 1 +
        if second.isAlt then second.footprintIn true
        else second.footprintIn false + .states 2 1
  | .repeated body least more? =>
    if isVoid (.repeated body least more?) then .states 1 0
    else
      let (least, more?) := boundsFor body.takesNothing least more?
      .ofRepetition (body.footprintIn false) body.mayTakeNothing least more?

/-- The automata of a pattern with what lets them start anywhere and note the whole match. -/
def footprint (pattern : Pattern) : Footprint :=
  pattern.footprintIn false + ⟨6 * Footprint.stateBytes + 16, 4 * Footprint.stateBytes + 16⟩

/-- The most bytes that an automaton of a pattern may take. -/
def maxFootprint : Nat := 10 * 1024 * 1024

/-- The pattern is neither nested too deeply nor too large. -/
def isAcceptable (pattern : Pattern) : Bool :=
  decide (pattern.nesting ≤ maxNesting) && decide (pattern.footprint.forwards ≤ maxFootprint) &&
    decide (pattern.footprint.backwards ≤ maxFootprint)

end Pattern

end HardwareCounters
