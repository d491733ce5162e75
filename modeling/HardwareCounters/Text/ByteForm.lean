/-
# Byte forms of ranges

The UTF-8 forms of the code points of a range are given by few rows of byte ranges: a row stands for
the forms with each byte in the range at its position.

* `byteRows` cuts a range into rows, in order;
* `branches` reads rows as a tree, one first byte after another.
-/
import HardwareCounters.Text.CodeRange

namespace HardwareCounters

namespace Text

abbrev ByteRange := Nat × Nat

/-- A range of bytes for each position of a form. -/
abbrev ByteRow := List ByteRange

/-! ## 1. Rows -/

def nextLead : Nat := 0x80

/-- The bytes after the first that are not bounded. -/
def anyNext : ByteRange := (0x80, 0xBF)

/-- The rows of the numbers from `first` to `last`.  The first byte adds the highest digit to
`lead`, and `more` bytes with six bits each follow it. -/
def rowsBetween (lead : Nat) : Nat → Nat → Nat → List ByteRow
  | 0, first, last => [[(lead + first, lead + last)]]
  | more + 1, first, last =>
    let block := 1 <<< (6 * (more + 1))
    let within (digit first last : Nat) : List ByteRow :=
      (rowsBetween nextLead more first last).map ((lead + digit, lead + digit) :: ·)
    let low := first / block
    let high := last / block
    if low = high then within low (first % block) (last % block)
    else
      let startsInside := first % block ≠ 0
      let endsInside := last % block ≠ block - 1
      let fullLow := if startsInside then low + 1 else low
      let fullEnd := if endsInside then high else high + 1
      (if startsInside then within low (first % block) (block - 1) else []) ++
        (if fullLow < fullEnd then
          [(lead + fullLow, lead + fullEnd - 1) :: List.replicate (more + 1) anyNext]
        else []) ++
        (if endsInside then within high 0 (last % block) else [])

structure FormLength where
  first : Nat
  last : Nat
  lead : Nat
  more : Nat

/-- The code points by the lengths of their forms.  Surrogates have none. -/
def formLengths : List FormLength :=
  [⟨0, 0x7F, 0, 0⟩, ⟨0x80, 0x7FF, 0xC0, 1⟩, ⟨0x800, 0xD7FF, 0xE0, 2⟩, ⟨0xE000, 0xFFFF, 0xE0, 2⟩,
    ⟨0x10000, 0x10FFFF, 0xF0, 3⟩]

/-- The rows of the code points of a range. -/
def rowsOf (range : CodeRange) : List ByteRow :=
  formLengths.flatMap fun length =>
    let first := max range.1 length.first
    let last := min range.2 length.last
    if first ≤ last then rowsBetween length.lead length.more first last else []

def byteRows (ranges : List CodeRange) : List ByteRow := ranges.flatMap rowsOf

/-! ## 2. Rows as a tree -/

/-- What may follow each first byte of rows in order. -/
def branches : List ByteRow → List (ByteRange × List ByteRow)
  | [] => []
  | [] :: rows => branches rows
  | (byte :: row) :: rows =>
    match branches rows with
    | [] => [(byte, [row])]
    | (next, following) :: more =>
      if next = byte then (byte, row :: following) :: more
      else (byte, [row]) :: (next, following) :: more

def longestForm : Nat := 4

/-- The number of the tree's edges, down to a depth. -/
def edgeCount : Nat → List ByteRow → Nat
  | 0, _ => 0
  | depth + 1, rows => (branches rows).foldl (fun n branch => n + 1 + edgeCount depth branch.2) 0

/-- The tree's inner nodes, down to a depth.  A node is what follows it. -/
def innerNodes : Nat → List ByteRow → List (List ByteRow)
  | 0, _ => []
  | depth + 1, rows =>
    if rows = [[]] then []
    else rows :: (branches rows).flatMap fun branch => innerNodes depth branch.2

end Text

end HardwareCounters
