/-
# Blanks

The characters that trimming removes and that may surround the parts of a descriptor are those with
the Unicode property `White_Space`.  The zero width space U+200B and the byte order mark U+FEFF do
not have it.

* `trim_trim`: trimming a trimmed text changes nothing.
-/
import HardwareCounters.Text.CodeRange

namespace HardwareCounters

namespace Text

/-! ## 1. The property -/

/-- The code points with the property `White_Space`. -/
def blankRanges : List CodeRange :=
  [
    (0x9, 0xD), (0x20, 0x20), (0x85, 0x85), (0xA0, 0xA0), (0x1680, 0x1680), (0x2000, 0x200A),
    (0x2028, 0x2029), (0x202F, 0x202F), (0x205F, 0x205F), (0x3000, 0x3000)
  ]

/-- The character has the property `White_Space`. -/
def isBlank (c : Char) : Bool := inRanges blankRanges c

/-! ## 2. Trimming -/

/-- The text without the blanks at its start. -/
def trimStart (t : Text) : Text := t.dropWhile isBlank

/-- The text without the blanks at its end. -/
def trimEnd (t : Text) : Text := dropEndWhile isBlank t

/-- The text without the blanks at its two ends. -/
def trim (t : Text) : Text := trimEnd (trimStart t)

theorem dropWhile_dropWhile (p : Char → Bool) (t : Text) :
    (t.dropWhile p).dropWhile p = t.dropWhile p := by
  induction t with
  | nil => rfl
  | cons c t ih =>
    by_cases h : p c = true
    · simp [h, ih]
    · simp [h]

theorem dropEndWhile_dropEndWhile (p : Char → Bool) (t : Text) :
    dropEndWhile p (dropEndWhile p t) = dropEndWhile p t := by
  simp [dropEndWhile, dropWhile_dropWhile]

theorem dropEndWhile_isPrefixOf (p : Char → Bool) (t : Text) : dropEndWhile p t <+: t := by
  have h := (List.dropWhile_suffix p (l := t.reverse)).reverse
  simpa [dropEndWhile] using h

theorem dropWhile_eq_self_of_isPrefixOf {p : Char → Bool} {s t : Text} (hs : s <+: t)
    (ht : t.dropWhile p = t) : s.dropWhile p = s := by
  obtain ⟨rest, rfl⟩ := hs
  cases s with
  | nil => rfl
  | cons c s =>
    by_cases h : p c = true
    · have hlen := congrArg List.length ht
      have hle := (List.dropWhile_suffix p (l := s ++ rest)).length_le
      simp only [List.cons_append, List.dropWhile_cons, h, if_true, List.length_cons] at hlen
      omega
    · simp [h]

/-- Trimming a trimmed text changes nothing. -/
theorem trim_trim (t : Text) : trim (trim t) = trim t := by
  have hstart : trimStart (trim t) = trim t :=
    dropWhile_eq_self_of_isPrefixOf (dropEndWhile_isPrefixOf isBlank (trimStart t))
      (dropWhile_dropWhile isBlank t)
  rw [trim, hstart]
  exact dropEndWhile_dropEndWhile isBlank (trimStart t)

end Text

end HardwareCounters
