/-
# Numbers in texts

Numbers are written with ASCII digits in radix 2, 8, 10 or 16.  Reading goes from left to right and
reports the first thing that is wrong: no text at all, a character that is no digit of the radix, or
the digit that takes the number past its limit.

* `readDigits_append`: reading two texts one after the other.
-/
import HardwareCounters.Text.Blank

namespace HardwareCounters

abbrev Word := BitVec 64

/-- What can be wrong with the text of a number. -/
inductive NumberError where
  | empty
  | invalidDigit
  | tooLarge
  | tooSmall
  deriving DecidableEq, Repr

def NumberError.message : NumberError → String
  | .empty => "cannot parse integer from empty string"
  | .invalidDigit => "invalid digit found in string"
  | .tooLarge => "number too large to fit in target type"
  | .tooSmall => "number too small to fit in target type"

namespace Numeral

/-! ## 1. Digits -/

/-- The value of a letter or digit of either case, if it is a digit of the radix. -/
def digitValue? (radix : Nat) (c : Char) : Option Nat :=
  let n := c.toNat
  let value :=
    if 48 ≤ n ∧ n ≤ 57 then n - 48
    else if 97 ≤ n ∧ n ≤ 122 then n - 97 + 10
    else if 65 ≤ n ∧ n ≤ 90 then n - 65 + 10
    else radix
  if value < radix then some value else none

/-- Reads digits after the number `acc`.  The number has to stay below `limit`, and the first
problem from the left is the one that is reported. -/
def readDigits (radix limit acc : Nat) : Text → Except NumberError Nat
  | [] => .ok acc
  | c :: rest =>
    match digitValue? radix c with
    | none => .error .invalidDigit
    | some d =>
      if acc * radix + d < limit then readDigits radix limit (acc * radix + d) rest
      else .error .tooLarge

theorem readDigits_append (radix limit acc : Nat) (s t : Text) :
    readDigits radix limit acc (s ++ t) =
      (readDigits radix limit acc s).bind fun n => readDigits radix limit n t := by
  induction s generalizing acc with
  | nil => rfl
  | cons c s ih =>
    simp only [List.cons_append, readDigits]
    cases digitValue? radix c with
    | none => rfl
    | some d =>
      by_cases h : acc * radix + d < limit
      · simp [h, ih]
      · simp [h, Except.bind]

/-! ## 2. Whole numbers -/

/-- A number without sign below `limit`.  One plus sign may stand before the digits; a sign on its
own is not a number. -/
def readUnsigned (radix limit : Nat) : Text → Except NumberError Nat
  | [] => .error .empty
  | ['+'] => .error .invalidDigit
  | '+' :: digits => readDigits radix limit 0 digits
  | digits => readDigits radix limit 0 digits

/-- A decimal number from `-bound` to `bound - 1`. -/
def readSigned (bound : Nat) : Text → Except NumberError Int
  | ['-'] => .error .invalidDigit
  | '-' :: digits =>
    match readDigits 10 (bound + 1) 0 digits with
    | .ok n => .ok (-n)
    | .error .tooLarge => .error .tooSmall
    | .error e => .error e
  | t => (readUnsigned 10 bound t).map Int.ofNat

def limit32 : Nat := 0x100000000

def limit64 : Nat := 0x10000000000000000

/-- The radix that the start of a text announces, and the text of the digits: `0x`, `0o` and `0b` in
either case, and a bare `0` before further characters for octal. -/
def radixAndDigits : Text → Nat × Text
  | '0' :: 'x' :: digits => (16, digits)
  | '0' :: 'X' :: digits => (16, digits)
  | '0' :: 'o' :: digits => (8, digits)
  | '0' :: 'O' :: digits => (8, digits)
  | '0' :: 'b' :: digits => (2, digits)
  | '0' :: 'B' :: digits => (2, digits)
  | '0' :: c :: digits => (8, c :: digits)
  | digits => (10, digits)

/-- Reads a word of 64 bits in any of the notations, with blanks around it. -/
def readWord (t : Text) : Except NumberError Word :=
  let (radix, digits) := radixAndDigits (Text.trim t)
  (readUnsigned radix limit64 digits).map (BitVec.ofNat 64)

/-! ## 3. Writing -/

/-- A number in decimal digits. -/
def decimal (n : Nat) : Text := Nat.toDigits 10 n

/-- A number in hexadecimal digits with small letters, after `0x`. -/
def hex (n : Nat) : Text := '0' :: 'x' :: Nat.toDigits 16 n

def hexUpper (n : Nat) : Text := (Nat.toDigits 16 n).map Char.toUpper

end Numeral

end HardwareCounters
