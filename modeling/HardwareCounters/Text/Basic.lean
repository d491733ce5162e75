/-
# Text

Event names, descriptors, term lists and the files they are read from are all short texts, and every
rule about them is a rule about one character after another.  A text is therefore its list of
characters, and the operations below are plain recursions on that list.

* `splitOn_joinWith`: pieces without the separator are recovered from the joined text;
* `splitOn_append`: the pieces of two texts with the separator between them;
* `joinWith_splitOn`: cutting a text and joining the pieces gives the text back;
* `not_mem_of_mem_splitOn`: no piece holds the separator.
-/

namespace HardwareCounters

/-- A text is the list of its characters. -/
abbrev Text := List Char

namespace Text

/-! ## 1. Cutting at a separator -/

/-- Puts a character in front of the first piece. -/
def consFirst (c : Char) : List Text → List Text
  | [] => [[c]]
  | piece :: pieces => (c :: piece) :: pieces

/-- The pieces of a text between the occurrences of `sep`.  There is always at least one piece, and
the pieces at the ends and between two neighbouring separators may be empty. -/
def splitOn (sep : Char) : Text → List Text
  | [] => [[]]
  | c :: rest => if c = sep then [] :: splitOn sep rest else consFirst c (splitOn sep rest)

/-- The pieces one after another with `sep` between neighbours. -/
def joinWith (sep : Text) : List Text → Text
  | [] => []
  | [piece] => piece
  | piece :: next :: pieces => piece ++ sep ++ joinWith sep (next :: pieces)

/-- The text before the first `sep` and the text after it, if there is a `sep`. -/
def cut? (sep : Char) : Text → Option (Text × Text)
  | [] => none
  | c :: rest =>
    if c = sep then some ([], rest)
    else (cut? sep rest).map fun (before, after) => (c :: before, after)

/-- The text before the first `sep`, or all of it. -/
def upTo (sep : Char) (t : Text) : Text := t.takeWhile (· ≠ sep)

theorem splitOn_ne_nil (sep : Char) (t : Text) : splitOn sep t ≠ [] := by
  cases t with
  | nil => simp [splitOn]
  | cons c rest =>
    rw [splitOn]
    split
    · simp
    · cases splitOn sep rest <;> simp [consFirst]

theorem joinWith_consFirst (sep : Text) (c : Char) {pieces : List Text} (h : pieces ≠ []) :
    joinWith sep (consFirst c pieces) = c :: joinWith sep pieces := by
  match pieces, h with
  | [piece], _ => rfl
  | piece :: next :: pieces, _ => simp [consFirst, joinWith]

/-- Cutting a text and joining the pieces gives the text back. -/
theorem joinWith_splitOn (sep : Char) (t : Text) : joinWith [sep] (splitOn sep t) = t := by
  induction t with
  | nil => rfl
  | cons c rest ih =>
    have hne := splitOn_ne_nil sep rest
    rw [splitOn]
    split
    · rename_i h
      cases hs : splitOn sep rest with
      | nil => exact absurd hs hne
      | cons piece pieces => simp [joinWith, ← hs, ih, h]
    · rw [joinWith_consFirst _ _ hne, ih]

theorem not_mem_of_mem_splitOn {sep : Char} {t piece : Text} (h : piece ∈ splitOn sep t) :
    sep ∉ piece := by
  induction t generalizing piece with
  | nil => simp_all [splitOn]
  | cons c rest ih =>
    rw [splitOn] at h
    split at h
    · rcases List.mem_cons.mp h with rfl | h
      · simp
      · exact ih h
    · rename_i hc
      cases hs : splitOn sep rest with
      | nil => exact absurd hs (splitOn_ne_nil sep rest)
      | cons first pieces =>
        simp only [hs, consFirst] at h
        rcases List.mem_cons.mp h with rfl | h
        · have hfirst : sep ∉ first := ih (by simp [hs])
          simp [hfirst, Ne.symm hc]
        · exact ih (by simp [hs, h])

theorem splitOn_of_not_mem {sep : Char} {t : Text} (h : sep ∉ t) : splitOn sep t = [t] := by
  induction t with
  | nil => rfl
  | cons c rest ih =>
    have hc : c ≠ sep := fun e => h (by simp [e])
    rw [splitOn, if_neg hc, ih (fun hm => h (by simp [hm]))]
    rfl

theorem splitOn_append_cons {sep : Char} {t rest : Text} (h : sep ∉ t) :
    splitOn sep (t ++ sep :: rest) = t :: splitOn sep rest := by
  induction t with
  | nil => simp [splitOn]
  | cons c t ih =>
    have hc : c ≠ sep := fun e => h (by simp [e])
    rw [List.cons_append, splitOn, if_neg hc, ih (fun hm => h (by simp [hm]))]
    rfl

theorem splitOn_append (sep : Char) (s t : Text) :
    splitOn sep (s ++ sep :: t) = splitOn sep s ++ splitOn sep t := by
  induction s with
  | nil => simp [splitOn]
  | cons c s ih =>
    rw [List.cons_append, splitOn, splitOn]
    split
    · rw [ih, List.cons_append]
    · rw [ih]
      cases hs : splitOn sep s with
      | nil => exact absurd hs (splitOn_ne_nil sep s)
      | cons piece pieces => simp [consFirst]

/-- Pieces without the separator are recovered from the joined text. -/
theorem splitOn_joinWith {sep : Char} {pieces : List Text} (hne : pieces ≠ [])
    (h : ∀ piece ∈ pieces, sep ∉ piece) : splitOn sep (joinWith [sep] pieces) = pieces := by
  induction pieces with
  | nil => exact absurd rfl hne
  | cons piece pieces ih =>
    cases pieces with
    | nil => exact splitOn_of_not_mem (h piece (by simp))
    | cons next pieces =>
      rw [joinWith, List.append_assoc, List.singleton_append,
        splitOn_append_cons (h piece (by simp)), ih (by simp) (fun p hp => h p (by simp [hp]))]

/-! ## 2. Ends of a text -/

/-- What follows `front`, if the text starts with it. -/
def dropFront? (front : Text) (t : Text) : Option Text :=
  if front.isPrefixOf t then some (t.drop front.length) else none

/-- What precedes the last character, if that character is `last`. -/
def dropLast? (last : Char) (t : Text) : Option Text :=
  if t.getLast? = some last then some t.dropLast else none

/-- The text without the characters at its end that satisfy `p`. -/
def dropEndWhile (p : Char → Bool) (t : Text) : Text := (t.reverse.dropWhile p).reverse

/-- The text filled up to `width` characters with blanks in front. -/
def alignRight (width : Nat) (t : Text) : Text := List.replicate (width - t.length) ' ' ++ t

/-- The text filled up to `width` characters with blanks behind. -/
def alignLeft (width : Nat) (t : Text) : Text := t ++ List.replicate (width - t.length) ' '

/-! ## 3. Lines -/

/-- A line without the carriage return at its end. -/
def dropReturn (line : Text) : Text := (dropLast? '\r' line).getD line

/-- The lines of a text.  A line ends at a line feed, and a carriage return directly before it
belongs to that end. -/
def lines (t : Text) : List Text := (splitOn '\n' t).map dropReturn

/-! ## 4. Order -/

/-- Texts are ordered by the code points of their characters; this is also the order of the bytes of
their UTF-8 forms. -/
def le : Text → Text → Bool
  | [], _ => true
  | _ :: _, [] => false
  | a :: as, b :: bs => a.val < b.val || (a == b && le as bs)

end Text

end HardwareCounters
