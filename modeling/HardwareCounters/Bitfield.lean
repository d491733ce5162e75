/-
# Bit fields

The kernel describes where the value of a term goes by a configuration word and ranges of its bits,
as in `config:0-7,32-35`.  The bits of a value fill the ranges in the order in which they are
written, each from its lowest bit.

* `BitRange` carries its bounds: the low bit is not above the high bit, and both lie in the word;
* `getLsbD_lowBits`: which bits are kept of the part of a value that goes into a range;
* `word_pack`: packing changes the word of the field and no other.
-/
import HardwareCounters.Attribute
import HardwareCounters.Error
import HardwareCounters.Text.DecimalDigit

namespace HardwareCounters

/-! ## 1. Ranges and fields -/

structure BitRange where
  lo : Nat
  hi : Nat
  lo_le_hi : lo ≤ hi
  hi_lt : hi < 64
  deriving DecidableEq, Repr

namespace BitRange

def width (range : BitRange) : Nat := range.hi - range.lo + 1

/-- The bits between two, which may come in either order. -/
def spanning (m n : Nat) (hm : m < 64) (hn : n < 64) : BitRange where
  lo := min m n
  hi := max m n
  lo_le_hi := by omega
  hi_lt := by omega

theorem lo_lt (range : BitRange) : range.lo < 64 := Nat.lt_of_le_of_lt range.lo_le_hi range.hi_lt

theorem lo_add_width_le (range : BitRange) : range.lo + range.width ≤ 64 := by
  have := range.lo_le_hi
  have := range.hi_lt
  simp only [width]
  omega

end BitRange

structure Bitfield where
  word : ConfigWord
  ranges : List BitRange
  deriving DecidableEq, Repr

namespace Bitfield

/-! ## 2. Packing -/

def totalWidth (ranges : List BitRange) : Nat :=
  ranges.foldr (fun range n => range.width + n) 0

def width (field : Bitfield) : Nat := totalWidth field.ranges

/-- The word in which the lowest `n` bits are set. -/
def lowBits (n : Nat) : Word := (BitVec.allOnes n).setWidth 64

theorem getLsbD_lowBits (n i : Nat) :
    (lowBits n).getLsbD i = (decide (i < 64) && decide (i < n)) := by
  simp [lowBits]

/-- Adds the bits of `value` to `target`, the lowest ones to the first range. -/
def packRanges : List BitRange → Word → Word → Word
  | [], _, target => target
  | range :: ranges, value, target =>
    packRanges ranges (value >>> range.width)
      (target ||| ((value &&& lowBits range.width) <<< range.lo))

/-- The attribute with a value added to the bits of a field. -/
def pack (field : Bitfield) (value : Word) (attr : Attribute) : Attribute :=
  attr.setWord field.word (packRanges field.ranges value (attr.word field.word))

theorem word_pack (field : Bitfield) (value : Word) (attr : Attribute) (which : ConfigWord) :
    (field.pack value attr).word which =
      if which = field.word then packRanges field.ranges value (attr.word which)
      else attr.word which := by
  simp only [pack, Attribute.word_setWord]
  split <;> simp_all

/-! ## 3. Reading the text of a field -/

/-- The text of a range: a bit, and possibly a separator and a second bit. -/
structure RangeText where
  first : Text
  second? : Option (Char × Text)

/-- Splits the text of a range.  Bits are written with decimal digits of any script; `-` and `=` are
separators. -/
def RangeText.ofText? (t : Text) : Option RangeText :=
  match t.takeWhile Text.isDecimalDigit, t.dropWhile Text.isDecimalDigit with
  | [], _ => none
  | first, [] => some ⟨first, none⟩
  | first, sep :: second =>
    if (sep = '-' ∨ sep = '=') ∧ second ≠ [] ∧ second.all Text.isDecimalDigit then
      some ⟨first, some (sep, second)⟩
    else none

/-- The range between two bits, if both lie in the word. -/
def rangeBetween (format : Text) (m n : Nat) : Except Error BitRange :=
  if h : m < 64 ∧ n < 64 then .ok (.spanning m n h.1 h.2)
  else .error (.badFormat format .bitTooLarge)

def readBit (t : Text) : Except Error Nat :=
  match Numeral.readUnsigned 10 Numeral.limit32 t with
  | .ok n => .ok n
  | .error e => .error (.number e)

/-- Reads one range of the word named `target`.  The separator `=` belongs to the word `config2`. -/
def readRange (format target : Text) (range : RangeText) : Except Error BitRange := do
  let first ← readBit range.first
  match range.second? with
  | none => rangeBetween format first first
  | some (sep, second) =>
    if sep = '=' ∧ target ≠ "config2".toList then throw (.badFormat format .misplacedSeparator)
    let second ← readBit second
    rangeBetween format first second

/-- Reads the ranges of a field from its parts, each with the information whether it was written as
a single bit. -/
def readRanges (format target : Text) : List Text → Except Error (List (BitRange × Bool))
  | [] => .ok []
  | part :: parts => do
    let some text := RangeText.ofText? (Text.trim part)
      | throw (.badFormat format .malformedRange)
    let range ← readRange format target text
    let ranges ← readRanges format target parts
    return (range, text.second?.isNone) :: ranges

/-- The configuration word with the name `target`.  A field of `config1` that is written as a single
bit lies in `config`. -/
def wordNamed? (target : Text) (ranges : List (BitRange × Bool)) : Option ConfigWord :=
  if target = ConfigWord.config.key.toList then some .config
  else if target = ConfigWord.config1.key.toList then
    match ranges with
    | [(_, true)] => some .config
    | _ => some .config1
  else if target = ConfigWord.config2.key.toList then some .config2
  else none

def parse (format : Text) : Except Error Bitfield := do
  let some (target, body) := Text.cut? ':' (Text.trim format)
    | throw (.badFormat format .missingColon)
  let ranges ← readRanges format target (Text.splitOn ',' body)
  let some word := wordNamed? target ranges
    | throw (.badFormat format .unknownWord)
  return ⟨word, ranges.map Prod.fst⟩

end Bitfield

end HardwareCounters
