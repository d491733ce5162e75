/-
# Counter attributes

A resolved event is an attribute: the PMU that counts it, three configuration words, how it is
sampled, and what is left out of the count.

* `applyQualifiers_append`: qualifiers may be applied one text after another.
-/
import HardwareCounters.Numeral

namespace HardwareCounters

/-- How a counter is sampled. -/
inductive Sampling where
  | period (events : Word)
  | frequency (hertz : Word)
  deriving DecidableEq, Repr

inductive ConfigWord where
  | config
  | config1
  | config2
  deriving DecidableEq, Repr

/-- The name of a configuration word, in terms and in bit fields. -/
def ConfigWord.key : ConfigWord → String
  | .config => "config"
  | .config1 => "config1"
  | .config2 => "config2"

structure Attribute where
  pmuType : BitVec 32 := 0
  config : Word := 0
  config1 : Word := 0
  config2 : Word := 0
  sampling : Sampling := .period 0
  excludeUser : Bool := false
  excludeKernel : Bool := false
  excludeGuest : Bool := false
  excludeHypervisor : Bool := false
  precise : BitVec 8 := 0
  deriving DecidableEq, Repr

namespace Attribute

/-- The type of a PMU whose events are given as raw codes. -/
def rawType : BitVec 32 := 4

def raw : Attribute := { pmuType := rawType }

/-! ## 1. Configuration words -/

def word (attr : Attribute) : ConfigWord → Word
  | .config => attr.config
  | .config1 => attr.config1
  | .config2 => attr.config2

/-- The attribute with another configuration word. -/
def setWord (attr : Attribute) (which : ConfigWord) (value : Word) : Attribute :=
  match which with
  | .config => { attr with config := value }
  | .config1 => { attr with config1 := value }
  | .config2 => { attr with config2 := value }

@[simp] theorem word_setWord (attr : Attribute) (which other : ConfigWord) (value : Word) :
    (attr.setWord which value).word other = if other = which then value else attr.word other := by
  cases which <;> cases other <;> rfl

/-! ## 2. Qualifiers -/

/-- The next level of precision.  Level 3 is the highest. -/
def raisePrecise (level : BitVec 8) : BitVec 8 := if level + 1 ≤ 3 then level + 1 else 3

/-- The attribute after one qualifier letter.  A letter without meaning changes nothing. -/
def applyQualifier (attr : Attribute) (letter : Char) : Attribute :=
  if letter = 'p' then { attr with precise := raisePrecise attr.precise }
  else if letter = 'k' then { attr with excludeUser := true }
  else if letter = 'u' then { attr with excludeKernel := true }
  else if letter = 'h' then { attr with excludeGuest := true }
  else attr

/-- The attribute after the letters of a text, from left to right. -/
def applyQualifiers (attr : Attribute) (letters : Text) : Attribute :=
  letters.foldl applyQualifier attr

/-- The same where the next level is found by a checked sum of bytes: behind level 255 there is none. -/
def applyQualifiers? (attr : Attribute) : Text → Option Attribute
  | [] => some attr
  | letter :: letters =>
    if letter = 'p' ∧ attr.precise = 255 then none
    else (attr.applyQualifier letter).applyQualifiers? letters

theorem applyQualifiers_append (attr : Attribute) (s t : Text) :
    attr.applyQualifiers (s ++ t) = (attr.applyQualifiers s).applyQualifiers t :=
  List.foldl_append

end Attribute

end HardwareCounters
