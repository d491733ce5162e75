/-
# Ranges of code points

A class of characters that a standard defines by a table is a list of ranges of code points.

* `joinRanges` puts ranges in order and joins those that touch;
* `complement` gives the ranges between.
-/
import HardwareCounters.Text.Basic

namespace HardwareCounters

namespace Text

/-- The code points from the first number to the second, both included. -/
abbrev CodeRange := Nat × Nat

/-! ## 1. Membership -/

/-- The code point lies in one of the ranges. -/
def covers (ranges : List CodeRange) (n : Nat) : Bool :=
  ranges.any fun range => decide (range.1 ≤ n) && decide (n ≤ range.2)

/-- The character lies in one of the ranges. -/
def inRanges (ranges : List CodeRange) (c : Char) : Bool := covers ranges c.toNat

theorem covers_iff {ranges : List CodeRange} {n : Nat} :
    covers ranges n = true ↔ ∃ range ∈ ranges, range.1 ≤ n ∧ n ≤ range.2 := by
  simp [covers]

theorem inRanges_iff {ranges : List CodeRange} {c : Char} :
    inRanges ranges c = true ↔ ∃ range ∈ ranges, range.1 ≤ c.toNat ∧ c.toNat ≤ range.2 :=
  covers_iff

/-! ## 2. Ranges in order -/

/-- The largest code point. -/
def lastCodePoint : Nat := 0x10FFFF

/-- Puts a range in front of ranges in order, none of which starts before it, and joins it to those
that it touches. -/
def absorb (range : CodeRange) : List CodeRange → List CodeRange
  | [] => [range]
  | next :: ranges =>
    if next.1 ≤ range.2 + 1 then absorb (range.1, max range.2 next.2) ranges
    else range :: next :: ranges

/-- The same code points, by ranges in order that do not touch each other. -/
def joinRanges (ranges : List CodeRange) : List CodeRange :=
  (ranges.mergeSort fun a b => decide (a.1 ≤ b.1)).foldr absorb []

/-- The code points from `start` on that lie between ranges in order. -/
def gapsFrom (start : Nat) : List CodeRange → List CodeRange
  | [] => if start ≤ lastCodePoint then [(start, lastCodePoint)] else []
  | range :: ranges =>
    if start < range.1 then (start, range.1 - 1) :: gapsFrom (range.2 + 1) ranges
    else gapsFrom (range.2 + 1) ranges

/-- The code points outside the ranges. -/
def complement (ranges : List CodeRange) : List CodeRange := gapsFrom 0 (joinRanges ranges)

end Text

end HardwareCounters
