/-
# The tokens of a pattern

The text of a pattern is a row of tokens: patterns for single characters and ends, repetitions,
bars, and parentheses.  A text that is no such row is refused here; what the row means is said in
`Pattern.Reader`.
-/
import HardwareCounters.Numeral
import HardwareCounters.Pattern.Basic

namespace HardwareCounters

inductive PatternToken where
  | atom (pattern : Pattern)
  | repetition (least : Nat) (more? : Option Nat)
  | bar
  | opening
  | closing
  deriving DecidableEq, Repr

namespace PatternToken

/-! ## 1. Escapes and classes -/

def classLetter? (c : Char) : Option ClassItem :=
  if c = 'd' then some (.digit false)
  else if c = 'D' then some (.digit true)
  else if c = 's' then some (.blank false)
  else if c = 'S' then some (.blank true)
  else none

/-- The character that a character after a backslash stands for: a control character by a letter, or
a mark by itself. -/
def escaped? (c : Char) : Option Char :=
  if c = 'n' then some '\n'
  else if c = 't' then some '\t'
  else if c = 'r' then some '\r'
  else if c = 'f' then some (Char.ofNat 12)
  else if c = 'v' then some (Char.ofNat 11)
  else if c = 'a' then some (Char.ofNat 7)
  else if c.isAlphanum ∨ c = '<' ∨ c = '>' ∨ 128 ≤ c.toNat then none
  else some c

/-- The character at the start of an item of a class. -/
def classChar? : Text → Option (Char × Text)
  | [] => none
  | '\\' :: c :: rest => (escaped? c).map fun c => (c, rest)
  | c :: rest => if c = '\\' ∨ c = '[' then none else some (c, rest)

/-- Reads an item of a class: a class letter, a character, or two characters around a hyphen, of
which the first is not the greater one. -/
def classItem? (t : Text) : Option (ClassItem × Text) :=
  let single? := do
    let (first, rest) ← classChar? t
    match rest with
    | '-' :: ']' :: _ => some (.single first, rest)
    | '-' :: after => do
      let (last, rest) ← classChar? after
      if h : first ≤ last then some (.between first last h, rest) else none
    | _ => some (.single first, rest)
  match t with
  | '\\' :: c :: rest =>
    match classLetter? c with
    | some item => some (item, rest)
    | none => single?
  | _ => single?

def classItems? : Nat → Text → Option (List ClassItem × Text)
  | 0, _ => none
  | _ + 1, ']' :: rest => some ([], rest)
  | fuel + 1, t => do
    let (item, rest) ← classItem? t
    let (items, rest) ← classItems? fuel rest
    return (item :: items, rest)

/-- Reads the items of a class behind the hyphens at its start.  Without such hyphens, a bracket at
the start stands for itself. -/
def classRest? (afterHyphens : Bool) (t : Text) : Option (List ClassItem × Text) :=
  match afterHyphens, t with
  | false, ']' :: rest =>
    (classItems? (rest.length + 1) rest).map fun (items, rest) => (.single ']' :: items, rest)
  | _, t => classItems? (t.length + 1) t

/-- Reads a class after its opening bracket.  Hyphens at its start stand for themselves. -/
def charClass? (t : Text) : Option (CharClass × Text) := do
  let (negated, t) :=
    match t with
    | '^' :: rest => (true, rest)
    | _ => (false, t)
  let hyphens := t.takeWhile (· == '-')
  let (items, rest) ← classRest? (!hyphens.isEmpty) (t.dropWhile (· == '-'))
  return (.oneOf (hyphens.map .single ++ items) negated, rest)

/-! ## 2. Repetitions -/

/-- Reads a count at the start of a text, with the blanks around it. -/
def count? (t : Text) : Option (Nat × Text) :=
  let t := Text.trimStart t
  match Numeral.readUnsigned 10 Numeral.limit32 (t.takeWhile Char.isDigit) with
  | .ok n => some (n, Text.trimStart (t.dropWhile Char.isDigit))
  | .error _ => none

/-- Reads the bounds of a repetition after its opening brace. -/
def bounds? (t : Text) : Option (PatternToken × Text) := do
  let (least, rest) ← count? t
  match rest with
  | '}' :: rest => some (.repetition least (some 0), rest)
  | ',' :: '}' :: rest => some (.repetition least none, rest)
  | ',' :: rest => do
    let (most, rest) ← count? rest
    match rest with
    | '}' :: rest =>
      if least ≤ most then some (.repetition least (some (most - least)), rest) else none
    | _ => none
  | _ => none

/-- The text without a question mark that asks a repetition to be short.  The shortest match exists
where any does. -/
def dropShortMark : Text → Text
  | '?' :: rest => rest
  | t => t

/-! ## 3. Tokens -/

def read? : Text → Option (PatternToken × Text)
  | [] => none
  | '.' :: rest => some (.atom (.char .any), rest)
  | '^' :: rest => some (.atom .start, rest)
  | '$' :: rest => some (.atom .finish, rest)
  | '|' :: rest => some (.bar, rest)
  | '(' :: '?' :: ':' :: rest => some (.opening, rest)
  | '(' :: '?' :: _ => none
  | '(' :: rest => some (.opening, rest)
  | ')' :: rest => some (.closing, rest)
  | '*' :: rest => some (.repetition 0 none, dropShortMark rest)
  | '+' :: rest => some (.repetition 1 none, dropShortMark rest)
  | '?' :: rest => some (.repetition 0 (some 1), dropShortMark rest)
  | '{' :: rest => (bounds? rest).map fun (token, rest) => (token, dropShortMark rest)
  | '[' :: rest => (charClass? rest).map fun (charClass, rest) => (.atom (.char charClass), rest)
  | '\\' :: c :: rest =>
    match classLetter? c with
    | some item => some (.atom (.char (.lettered item)), rest)
    | none => (escaped? c).map fun c => (.atom (.char (.only c)), rest)
  | c :: rest => if c = '\\' then none else some (.atom (.char (.only c)), rest)

def readMany? : Nat → Text → Option (List PatternToken)
  | _, [] => some []
  | 0, _ => none
  | fuel + 1, t => do
    let (token, rest) ← read? t
    let tokens ← readMany? fuel rest
    return token :: tokens

def readAll? (t : Text) : Option (List PatternToken) := readMany? t.length t

end PatternToken

end HardwareCounters
