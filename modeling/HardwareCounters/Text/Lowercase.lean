/-
# Lower case

Catalog names are looked up by their lower-case form.  It is the full Unicode one: a character may
become two (U+0130 does), and a capital sigma becomes the final form at the end of a word.
-/
import HardwareCounters.Text.CaseTable
import HardwareCounters.Text.CasedTable

namespace HardwareCounters

namespace Text

/-! ## 1. Single characters -/

def lowerChar (c : Char) : Text :=
  if c.toNat < 128 then [c.toLower]
  else if c.toNat = 0x130 then ['i', Char.ofNat 0x307]
  else [mapRuns lowercaseRuns c]

/-! ## 2. Texts -/

/-- Going away from a position, the first character that is not case-ignorable is cased. -/
def meetsCased (t : Text) : Bool :=
  match t.dropWhile isCaseIgnorable with
  | [] => false
  | c :: _ => isCased c

/-- The lower case of a sigma between `before`, read backwards, and `after`: the final form if a
cased character precedes it and none follows. -/
def lowerSigma (before after : Text) : Char :=
  if meetsCased before && !meetsCased after then 'ς' else 'σ'

/-- The lower case of a text that follows `before`, which is given backwards. -/
def lowercaseAfter (before : Text) : Text → Text
  | [] => []
  | c :: rest =>
    (if c = 'Σ' then [lowerSigma before rest] else lowerChar c) ++ lowercaseAfter (c :: before) rest

def lowercase (t : Text) : Text := lowercaseAfter [] t

/-- The two texts differ at most in the case of ASCII letters. -/
def sameIgnoringAsciiCase (s t : Text) : Bool := s.map Char.toLower == t.map Char.toLower

end Text

end HardwareCounters
