/-
# Joined texts

A list is written by joining its pieces with a separator and read by cutting the text again.  That
cutting undoes joining is `Text.splitOn_joinWith`; the lemmas here say what stands at the two ends of
a joined text and which characters are in it, what cutting once at a separator gives, and what
cutting gives if the pieces hold separators themselves.

* `exists_front`: a joined text ends with its last piece, whatever that is;
* `mem_joinWith` and `mem_joinWith_of_mem`: the characters of a joined text are those of the separator
  and of the pieces;
* `cut?_append`: a text is cut at the first separator, if it has one;
* `exists_splitOn_prepend` and `exists_splitOn_append`: what stands around a text belongs to its first
  or its last piece, and `map_splitOn_trim`: so blanks around it are not seen where they are not seen
  around a piece;
* `splitOn_joinWith_eq_flatMap`: the pieces of a joined text are those of the texts that were joined.
-/
import HardwareCounters.Proofs.Text.Trimming
import Mathlib.Data.List.Basic

namespace HardwareCounters

namespace Text

theorem joinWith_cons {sep piece : Text} {pieces : List Text} (h : pieces ≠ []) :
    joinWith sep (piece :: pieces) = piece ++ sep ++ joinWith sep pieces := by
  obtain ⟨next, rest, rfl⟩ := List.exists_cons_of_ne_nil h
  rfl

/-- A joined text starts with its first piece. -/
theorem exists_rest (sep piece : Text) (pieces : List Text) :
    ∃ rest, joinWith sep (piece :: pieces) = piece ++ rest := by
  cases pieces with
  | nil => exact ⟨[], by rw [joinWith, List.append_nil]⟩
  | cons next pieces =>
    exact ⟨sep ++ joinWith sep (next :: pieces), by rw [joinWith, List.append_assoc]⟩

/-- A joined text ends with its last piece, and what stands before that does not depend on it. -/
theorem exists_front (sep : Text) (pieces : List Text) :
    ∃ front, ∀ last, joinWith sep (pieces ++ [last]) = front ++ last := by
  induction pieces with
  | nil => exact ⟨[], fun last => rfl⟩
  | cons piece pieces ih =>
    obtain ⟨front, hfront⟩ := ih
    refine ⟨piece ++ sep ++ front, ?_⟩
    intro last
    rw [List.cons_append, joinWith_cons (by simp), hfront]
    simp

theorem mem_joinWith {sep : Text} {pieces : List Text} {c : Char} (h : c ∈ joinWith sep pieces) :
    c ∈ sep ∨ ∃ piece ∈ pieces, c ∈ piece := by
  induction pieces with
  | nil => cases h
  | cons piece pieces ih =>
    cases pieces with
    | nil => exact Or.inr ⟨piece, List.mem_cons_self, h⟩
    | cons next pieces =>
      rw [joinWith, List.mem_append, List.mem_append] at h
      rcases h with (h | h) | h
      · exact Or.inr ⟨piece, List.mem_cons_self, h⟩
      · exact Or.inl h
      · rcases ih h with h | ⟨other, hother, h⟩
        · exact Or.inl h
        · exact Or.inr ⟨other, List.mem_cons_of_mem piece hother, h⟩

theorem mem_joinWith_of_mem {piece : Text} {pieces : List Text} {c : Char} (sep : Text)
    (hpiece : piece ∈ pieces) (hc : c ∈ piece) : c ∈ joinWith sep pieces := by
  induction pieces with
  | nil => cases hpiece
  | cons first pieces ih =>
    rcases List.mem_cons.mp hpiece with rfl | hpiece
    · obtain ⟨rest, hrest⟩ := exists_rest sep piece pieces
      rw [hrest]
      exact List.mem_append_left rest hc
    · rw [joinWith_cons (List.ne_nil_of_mem hpiece)]
      exact List.mem_append_right _ (ih hpiece)

/-- A text is cut at the first separator. -/
theorem cut?_append {sep : Char} {before : Text} (after : Text) (h : sep ∉ before) :
    cut? sep (before ++ sep :: after) = some (before, after) := by
  induction before with
  | nil => simp [cut?]
  | cons c before ih =>
    have hc : c ≠ sep := fun heq => h (heq ▸ List.mem_cons_self)
    rw [List.cons_append, cut?, if_neg hc, ih fun hmem => h (List.mem_cons_of_mem c hmem)]
    rfl

/-- A text without the separator is not cut. -/
theorem cut?_eq_none {sep : Char} {t : Text} (h : sep ∉ t) : cut? sep t = none := by
  induction t with
  | nil => rfl
  | cons c t ih =>
    have hc : c ≠ sep := fun heq => h (heq ▸ List.mem_cons_self)
    rw [cut?, if_neg hc, ih fun hmem => h (List.mem_cons_of_mem c hmem)]
    rfl

/-- A joined text is written by putting the separator in front of every piece but the first. -/
theorem joinWith_cons_eq_flatMap (sep piece : Text) (pieces : List Text) :
    joinWith sep (piece :: pieces) = piece ++ pieces.flatMap fun other => sep ++ other := by
  induction pieces generalizing piece with
  | nil => rw [joinWith, List.flatMap_nil, List.append_nil]
  | cons next pieces ih => rw [joinWith, ih, List.flatMap_cons, List.append_assoc, List.append_assoc]

/-- What is joined from trimmed texts is trimmed. -/
theorem trim_joinWith (sep : Text) {pieces : List Text}
    (h : ∀ piece ∈ pieces, trim piece = piece ∧ piece ≠ []) :
    trim (joinWith sep pieces) = joinWith sep pieces := by
  induction pieces with
  | nil => rfl
  | cons piece pieces ih =>
    obtain ⟨⟨htrim, hne⟩, hpieces⟩ := List.forall_mem_cons.mp h
    cases pieces with
    | nil => exact htrim
    | cons next pieces =>
      obtain ⟨⟨-, hnext⟩, -⟩ := List.forall_mem_cons.mp hpieces
      obtain ⟨rest, hrest⟩ := exists_rest sep next pieces
      have hmore : joinWith sep (next :: pieces) ≠ [] := by
        rw [hrest]
        simp [hnext]
      exact trim_append_append htrim hne (ih hpieces) hmore sep

/-- The first piece of a text is what stands before the first separator. -/
theorem exists_splitOn_eq_cons (sep : Char) (t : Text) :
    ∃ pieces, splitOn sep t = upTo sep t :: pieces := by
  induction t with
  | nil => exact ⟨[], rfl⟩
  | cons c t ih =>
    obtain ⟨pieces, hpieces⟩ := ih
    rw [splitOn, upTo]
    split
    · rename_i hc
      exact ⟨splitOn sep t, by rw [List.takeWhile_cons_of_neg (by simpa using hc)]⟩
    · rename_i hc
      refine ⟨pieces, ?_⟩
      rw [hpieces, consFirst, List.takeWhile_cons_of_pos (by simpa using hc)]
      rfl

/-- What stands in front of a text and holds no separator belongs to the first piece. -/
theorem exists_splitOn_prepend {sep : Char} {front : Text} (h : sep ∉ front) (t : Text) :
    ∃ first rest, splitOn sep t = first :: rest ∧
      splitOn sep (front ++ t) = (front ++ first) :: rest := by
  obtain ⟨rest, hpieces⟩ := exists_splitOn_eq_cons sep t
  refine ⟨upTo sep t, rest, hpieces, ?_⟩
  have hjoined : front ++ t = joinWith [sep] ((front ++ upTo sep t) :: rest) := by
    rw [joinWith_cons_eq_flatMap, List.append_assoc, ← joinWith_cons_eq_flatMap, ← hpieces,
      joinWith_splitOn]
  rw [hjoined]
  refine splitOn_joinWith (List.cons_ne_nil _ _) ?_
  have hclear : ∀ piece ∈ upTo sep t :: rest, sep ∉ piece :=
    fun piece hpiece => not_mem_of_mem_splitOn (hpieces ▸ hpiece)
  rw [List.forall_mem_cons] at hclear ⊢
  exact ⟨by simp [h, hclear.1], hclear.2⟩

/-- What stands behind a text and holds no separator belongs to the last piece. -/
theorem exists_splitOn_append {sep : Char} {back : Text} (h : sep ∉ back) (t : Text) :
    ∃ init last, splitOn sep t = init ++ [last] ∧
      splitOn sep (t ++ back) = init ++ [last ++ back] := by
  obtain ⟨init, last, hpieces⟩ :=
    List.eq_nil_or_concat' (splitOn sep t) |>.resolve_left (splitOn_ne_nil sep t)
  refine ⟨init, last, hpieces, ?_⟩
  obtain ⟨front, hfront⟩ := exists_front [sep] init
  have hjoined : t ++ back = joinWith [sep] (init ++ [last ++ back]) := by
    rw [hfront, ← List.append_assoc, ← hfront, ← hpieces, joinWith_splitOn]
  rw [hjoined]
  refine splitOn_joinWith (by simp) ?_
  have hclear : ∀ piece ∈ init ++ [last], sep ∉ piece :=
    fun piece hpiece => not_mem_of_mem_splitOn (hpieces ▸ hpiece)
  rw [List.forall_mem_append, List.forall_mem_singleton] at hclear ⊢
  exact ⟨hclear.1, by simp [h, hclear.2]⟩

/-- Blanks around a text are not seen in what is made of its pieces, if they are not seen around a
piece. -/
theorem map_splitOn_trim {α : Type} {sep : Char} {f : Text → α} (hsep : isBlank sep = false)
    (hf : ∀ {front back : Text}, AllBlank front → AllBlank back →
      ∀ piece, f (front ++ piece ++ back) = f piece) (t : Text) :
    (splitOn sep (trim t)).map f = (splitOn sep t).map f := by
  obtain ⟨front, back, hfront, hback, ht⟩ := exists_surround_trim t
  obtain ⟨first, rest, hpieces, hfronted⟩ :=
    exists_splitOn_prepend (hfront.not_mem hsep) (trim t)
  obtain ⟨init, last, hfrontedPieces, hsurrounded⟩ :=
    exists_splitOn_append (hback.not_mem hsep) (front ++ trim t)
  rw [ht] at hsurrounded
  have hfirst : f (front ++ first) = f first := by
    simpa using hf hfront allBlank_nil first
  have hlast : f (last ++ back) = f last := hf allBlank_nil hback last
  calc (splitOn sep (trim t)).map f
      = (splitOn sep (front ++ trim t)).map f := by
        rw [hpieces, hfronted, List.map_cons, List.map_cons, hfirst]
    _ = (splitOn sep t).map f := by
        rw [hsurrounded, hfrontedPieces, List.map_append, List.map_append, List.map_singleton,
          List.map_singleton, hlast]

/-- Texts without the separator are their own pieces. -/
theorem flatMap_splitOn_of_not_mem {sep : Char} {pieces : List Text}
    (h : ∀ piece ∈ pieces, sep ∉ piece) : pieces.flatMap (splitOn sep) = pieces := by
  induction pieces with
  | nil => rfl
  | cons piece pieces ih =>
    obtain ⟨hpiece, hpieces⟩ := List.forall_mem_cons.mp h
    rw [List.flatMap_cons, splitOn_of_not_mem hpiece, ih hpieces, List.singleton_append]

/-- The pieces of a joined text are those of the texts that were joined. -/
theorem splitOn_joinWith_eq_flatMap (sep : Char) {pieces : List Text} (hne : pieces ≠ []) :
    splitOn sep (joinWith [sep] pieces) = pieces.flatMap (splitOn sep) := by
  induction pieces with
  | nil => exact absurd rfl hne
  | cons piece pieces ih =>
    cases pieces with
    | nil => rw [joinWith, List.flatMap_singleton]
    | cons next pieces =>
      rw [joinWith, List.append_assoc, List.singleton_append, splitOn_append, ih (by simp),
        ← List.flatMap_cons]

end Text

end HardwareCounters
