/-
# What a search finds

A search for paths is given from outside, and only what it finds is of interest: paths that match the
pattern.  For a pattern whose signs are stars that stand for whole parts this says which steps such a
path makes, namely those of the pattern with a name for each star.  Parts that lead nowhere may be left
out of what is found, so the path itself is known only where the pattern has none of them.

* `Filled`: a path that is the pattern with a name for each star, and `SameWay`: two paths that make the
  same steps from the same start;
* `Glob.Sound`: searches that find matching paths, and `FileTree.search_sound`: one of them;
* `readTrimmed?_of_sameWay`: a file that is read by one path is read by another one that leads the same
  way, unless this one is too long.
-/
import HardwareCounters.Glob
import HardwareCounters.Proofs.FileTree.Reading
import HardwareCounters.Proofs.Text.Joining
import Mathlib.Data.List.Forall2

namespace HardwareCounters

/-! ## 1. Paths that match a pattern -/

namespace Glob

/-- The text may stand where a part of a pattern stands. -/
inductive Fits : Text → Text → Prop
  | itself (part : Text) : Fits part part
  | name (name : FileName) : Fits star name.text

/-- The path is the pattern with a name for each star. -/
def Filled (pattern path : Text) : Prop :=
  List.Forall₂ Fits (Text.splitOn '/' pattern) (Text.splitOn '/' path)

theorem slash_not_mem_of_fits {parts pieces : List Text} (h : List.Forall₂ Fits parts pieces)
    (hparts : ∀ part ∈ parts, '/' ∉ part) : ∀ piece ∈ pieces, '/' ∉ piece := by
  induction h with
  | nil => exact fun _ hpiece => nomatch hpiece
  | cons hfit _ ih =>
    rw [List.forall_mem_cons] at hparts ⊢
    refine ⟨?_, ih hparts.2⟩
    cases hfit with
    | itself => exact hparts.1
    | name name => exact name.proper.2.2.2

/-- Every sign of the pattern is a star that is a part of its own. -/
def Plain (pattern : Text) : Prop :=
  ∀ part ∈ Text.splitOn '/' pattern, part = star ∨ ∀ c ∈ part, isSign c = false

end Glob

namespace PathStep

/-- The paths start alike and make the same steps. -/
structure SameWay (path other : Text) : Prop where
  head_iff : path.head? = some '/' ↔ other.head? = some '/'
  ofPath_eq : ofPath path = ofPath other

/-- Every part of the path leads somewhere, but that there may be an empty part in front of a path that
starts at the top. -/
structure Tidy (path : Text) : Prop where
  dot_not_mem : ['.'] ∉ Text.splitOn '/' path
  nil_not_mem : [] ∉ (Text.splitOn '/' path).tail

end PathStep

/-- For a plain pattern the search finds paths that lead the same way as the pattern with names for its
stars, and finds these very paths if the pattern is tidy. -/
def Glob.Sound (glob : Glob) : Prop :=
  ∀ {tree : FileTree} {pattern : Text} {found : List (Option Text)} {path : Text}, Plain pattern →
    glob tree pattern = some found → some path ∈ found →
    ∃ filled, Filled pattern filled ∧ PathStep.SameWay path filled ∧
      (PathStep.Tidy pattern → path = filled)

/-! ## 2. A sound search -/

namespace FileTree

variable {tree : FileTree} {front? : Option Text} {parts : List Text} {path : Text}

/-- What is found goes on behind the front with a text for every part. -/
theorem exists_fits_of_mem_expand (h : path ∈ tree.expand front? parts) :
    ∃ pieces, List.Forall₂ Glob.Fits parts pieces ∧
      pieces.foldl (fun front? piece => some (continued front? piece)) front? = some path := by
  induction parts generalizing front? with
  | nil => exact ⟨[], .nil, by simpa [expand] using h⟩
  | cons part parts ih =>
    rw [expand] at h
    split at h
    · rename_i hstar
      obtain ⟨name, -, hpath⟩ := List.mem_flatMap.mp h
      obtain ⟨pieces, hfits, hfold⟩ := ih hpath
      exact ⟨name.text :: pieces, .cons (hstar ▸ .name name) hfits, hfold⟩
    · split at h
      · obtain ⟨pieces, hfits, hfold⟩ := ih h
        exact ⟨part :: pieces, .cons (.itself part) hfits, hfold⟩
      · cases h

theorem foldl_continued (front : Text) (pieces : List Text) :
    pieces.foldl (fun front? piece => some (continued front? piece)) (some front) =
      some (Text.joinWith ['/'] (front :: pieces)) := by
  induction pieces generalizing front with
  | nil => rfl
  | cons piece pieces ih =>
    rw [List.foldl_cons, continued, ih, Text.joinWith_cons_eq_flatMap, Text.joinWith_cons_eq_flatMap]
    simp

/-- What is found by following the parts of a pattern is the pattern with names for its stars. -/
theorem filled_of_mem_expand {pattern : Text}
    (h : path ∈ tree.expand none (Text.splitOn '/' pattern)) : Glob.Filled pattern path := by
  obtain ⟨pieces, hfits, hfold⟩ := exists_fits_of_mem_expand h
  have hclear : ∀ piece ∈ pieces, '/' ∉ piece :=
    Glob.slash_not_mem_of_fits hfits fun _ hpart => Text.not_mem_of_mem_splitOn hpart
  cases pieces with
  | nil => cases hfold
  | cons piece pieces =>
    rw [List.foldl_cons, continued, foldl_continued] at hfold
    rw [Glob.Filled, ← Option.some.inj hfold, Text.splitOn_joinWith (List.cons_ne_nil _ _) hclear]
    exact hfits

/-- **The search of a tree** finds nothing but paths that match. -/
theorem search_sound : Glob.Sound search := by
  intro tree pattern found path _ hfound hpath
  rw [search] at hfound
  split at hfound
  · obtain rfl := Option.some.inj hfound
    obtain ⟨_, hmem, heq⟩ := List.mem_map.mp hpath
    obtain rfl := Option.some.inj heq
    exact ⟨_, filled_of_mem_expand hmem, ⟨Iff.rfl, rfl⟩, fun _ => rfl⟩
  · cases hfound

/-! ## 3. Paths that lead the same way -/

variable {other t : Text} {place reached : Place} {steps : List PathStep} {name : FileName}

theorem utf8Length_le_of_walk (h : tree.walk place steps = .ok reached) (hname : .down name ∈ steps) :
    utf8Length name.text ≤ maxNameLength := by
  induction steps generalizing place with
  | nil => cases hname
  | cons next steps ih =>
    obtain ⟨hstep, hrest⟩ := walk_cons_eq_ok_iff.mp h
    rcases List.mem_cons.mp hname with rfl | hname
    · refine Nat.le_of_not_lt fun hlong => ?_
      obtain ⟨hfound, -⟩ := follow_of_step hstep
      rw [step, hfound] at hstep
      simp only [if_pos hlong, reduceCtorEq] at hstep
    · exact ih hrest hname

theorem exists_name_of_mem_part {part : Text} {c : Char} (hslash : '/' ∉ part) (hdot : c ≠ '.')
    (hc : c ∈ part) :
    ∃ name : FileName, name.text = part ∧ PathStep.ofText? part = some (.down name) := by
  have hproper : part ≠ [] ∧ part ≠ ['.'] ∧ part ≠ ['.', '.'] ∧ '/' ∉ part := by
    refine ⟨List.ne_nil_of_mem hc, ?_, ?_, hslash⟩
    · rintro rfl
      exact hdot (List.mem_singleton.mp hc)
    · rintro rfl
      simp [hdot] at hc
  refine ⟨⟨part, hproper⟩, rfl, ?_⟩
  rw [PathStep.ofText?, if_neg hproper.2.2.1, FileName.ofText?, dif_pos hproper]
  rfl

theorem text_eq_of_ofText? {part : Text} (h : PathStep.ofText? part = some (.down name)) :
    name.text = part := by
  rw [PathStep.ofText?] at h
  split at h
  · cases h
  · rw [FileName.ofText?] at h
    split at h
    · cases h
      rfl
    · cases h

/-- The characters of a path are those of the names on its way, dots and slashes. -/
theorem mem_path_iff {c : Char} (hdot : c ≠ '.') (hslash : c ≠ '/') :
    c ∈ path ↔ ∃ name : FileName, .down name ∈ PathStep.ofPath path ∧ c ∈ name.text := by
  have hjoin := Text.joinWith_splitOn '/' path
  simp only [PathStep.ofPath, List.mem_filterMap]
  constructor
  · intro hc
    rw [← hjoin] at hc
    rcases Text.mem_joinWith hc with hsep | ⟨part, hpart, hmem⟩
    · exact absurd (List.mem_singleton.mp hsep) hslash
    · obtain ⟨name, htext, hname⟩ :=
        exists_name_of_mem_part (Text.not_mem_of_mem_splitOn hpart) hdot hmem
      exact ⟨name, ⟨part, hpart, hname⟩, htext ▸ hmem⟩
  · rintro ⟨name, ⟨part, hpart, hname⟩, hmem⟩
    rw [text_eq_of_ofText? hname] at hmem
    rw [← hjoin]
    exact Text.mem_joinWith_of_mem _ hpart hmem

/-- **A file is read by another path** that leads the same way, if this one is not too long and does
not ask for a directory. -/
theorem readTrimmed?_of_sameWay (h : PathStep.SameWay path other)
    (hlength : utf8Length other ≤ maxPathLength) (hends : PathStep.endsInDirectory other = false)
    (hread : tree.readTrimmed? path = some t) : tree.readTrimmed? other = some t := by
  obtain ⟨whole, hwhole, htrim⟩ := readTrimmed?_eq_some_iff.mp hread
  obtain ⟨⟨hnul, -, -⟩, reached, hwalk, hfound, -⟩ :=
    entryAt_eq_ok_iff.mp (read_eq_ok_iff.mp hwhole)
  have hother : Char.ofNat 0 ∉ other := by
    rw [mem_path_iff (by decide) (by decide)] at hnul ⊢
    rwa [← h.ofPath_eq]
  have hne : other ≠ [] := by
    rintro rfl
    cases hends
  have hstart : tree.startOf other = tree.startOf path := by
    simp only [startOf, h.head_iff]
  refine readTrimmed?_eq_some_iff.mpr ⟨whole, read_eq_ok_iff.mpr (entryAt_eq_ok_iff.mpr ?_), htrim⟩
  exact ⟨⟨hother, hne, hlength⟩, reached, hstart ▸ h.ofPath_eq ▸ hwalk, hfound, Or.inr hends⟩

end FileTree

end HardwareCounters
