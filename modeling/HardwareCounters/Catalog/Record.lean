/-
# Catalog files

A catalog file is a JSON array of objects whose values are texts.  Anything else is refused: other
values, comments, a comma before a closing bracket, a control character inside a text, half of a
surrogate pair.

* `Record.field?`: the value of a key, without blanks at its ends, unless nothing remains;
* `Record.readAll?`: the records of a file.
-/
import HardwareCounters.Numeral

namespace HardwareCounters

/-- The keys and values of one object, in the order in which they are written. -/
structure Record where
  fields : List (Text × Text)
  deriving DecidableEq, Repr

namespace Record

/-- The value of a key: the last one, if it is written more than once. -/
def get? (record : Record) (key : Text) : Option Text := record.fields.reverse.lookup key

/-- The value of a key without the blanks at its ends.  A value of which nothing remains counts as
missing. -/
def field? (record : Record) (key : String) : Option Text :=
  ((record.get? key.toList).map Text.trim).filter (· ≠ [])

/-! ## 1. Tokens -/

/-- The characters that may stand between the parts of a file.  They are fewer than the blanks that
a value may carry at its ends. -/
def isSpace (c : Char) : Bool := c == ' ' || c == '\t' || c == '\n' || c == '\r'

def skip (t : Text) : Text := t.dropWhile isSpace

def expect? (c : Char) (t : Text) : Option Text :=
  match skip t with
  | [] => none
  | d :: rest => if d = c then some rest else none

/-! ## 2. Texts -/

/-- The character that a letter or mark after a backslash stands for. -/
def escaped? (c : Char) : Option Char :=
  if c = '"' ∨ c = '\\' ∨ c = '/' then some c
  else if c = 'b' then some (Char.ofNat 8)
  else if c = 'f' then some (Char.ofNat 12)
  else if c = 'n' then some '\n'
  else if c = 'r' then some '\r'
  else if c = 't' then some '\t'
  else none

def codeUnit? (a b c d : Char) : Option Nat := do
  let a ← Numeral.digitValue? 16 a
  let b ← Numeral.digitValue? 16 b
  let c ← Numeral.digitValue? 16 c
  let d ← Numeral.digitValue? 16 d
  return ((a * 16 + b) * 16 + c) * 16 + d

def isHighHalf (n : Nat) : Bool := decide (0xD800 ≤ n) && decide (n < 0xDC00)

def isLowHalf (n : Nat) : Bool := decide (0xDC00 ≤ n) && decide (n < 0xE000)

/-- The character that a surrogate pair stands for. -/
def joinHalves (high low : Nat) : Char :=
  Char.ofNat (0x10000 + (high - 0xD800) * 0x400 + (low - 0xDC00))

def readLowHalf? (high : Nat) : Text → Option (Char × Text)
  | '\\' :: 'u' :: a :: b :: c :: d :: rest => do
    let low ← codeUnit? a b c d
    if isLowHalf low then some (joinHalves high low, rest) else none
  | _ => none

/-- Reads the four digits of an escaped code unit, and the other half if it is the first one of a
surrogate pair. -/
def readUnit? : Text → Option (Char × Text)
  | a :: b :: c :: d :: rest => do
    let n ← codeUnit? a b c d
    if isLowHalf n then none
    else if isHighHalf n then readLowHalf? n rest
    else some (Char.ofNat n, rest)
  | _ => none

/-- Reads one character of a text.  Control characters have to be escaped. -/
def readChar? : Text → Option (Char × Text)
  | [] => none
  | '\\' :: 'u' :: rest => readUnit? rest
  | '\\' :: c :: rest => (escaped? c).map fun c => (c, rest)
  | c :: rest => if c = '\\' ∨ c.toNat < 0x20 then none else some (c, rest)

/-- Reads the characters of a text up to its closing quote, at most `fuel` of them. -/
def readChars? : Nat → Text → Option (Text × Text)
  | 0, _ => none
  | _ + 1, '"' :: rest => some ([], rest)
  | fuel + 1, t => do
    let (c, rest) ← readChar? t
    let (cs, rest) ← readChars? fuel rest
    return (c :: cs, rest)

def readText? (fuel : Nat) (t : Text) : Option (Text × Text) := do
  let rest ← expect? '"' t
  readChars? fuel rest

/-! ## 3. Objects and arrays -/

/-- Reads at most `fuel` items of a sequence from its first item on, up to the closing bracket. -/
def readItems? {α : Type} (close : Char) (item? : Text → Option (α × Text)) :
    Nat → Text → Option (List α × Text)
  | 0, _ => none
  | fuel + 1, t => do
    let (item, rest) ← item? t
    match skip rest with
    | [] => none
    | c :: rest =>
      if c = close then some ([item], rest)
      else if c = ',' then do
        let (items, rest) ← readItems? close item? fuel rest
        return (item :: items, rest)
      else none

/-- Reads a sequence between brackets, of at most `fuel` items. -/
def readSequence? {α : Type} (opening close : Char) (item? : Text → Option (α × Text)) (fuel : Nat)
    (t : Text) : Option (List α × Text) := do
  let rest ← expect? opening t
  match expect? close rest with
  | some rest => return ([], rest)
  | none => readItems? close item? fuel rest

def readField? (fuel : Nat) (t : Text) : Option ((Text × Text) × Text) := do
  let (key, rest) ← readText? fuel t
  let rest ← expect? ':' rest
  let (value, rest) ← readText? fuel rest
  return ((key, value), rest)

/-- Reads an object. -/
def read? (fuel : Nat) (t : Text) : Option (Record × Text) :=
  (readSequence? '{' '}' (readField? fuel) fuel t).map fun (fields, rest) => (⟨fields⟩, rest)

/-- The records of a catalog file.  No part of it is longer than the file. -/
def readAll? (t : Text) : Option (List Record) := do
  let (records, rest) ← readSequence? '[' ']' (read? t.length) t.length t
  if skip rest = [] then some records else none

end Record

end HardwareCounters
