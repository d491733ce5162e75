/-
# What reading a path depends on

A path is read by walking through directories to a place and looking there.  So a file is read alike
in two trees that differ at other places only, as long as what differs is no directory through which
the walk could go.

* `exists_placeOf_joinPath`: the paths inside a directory lead from one place;
* `entryAt_eq_ok_iff`: what stands at a path, `readTrimmed?_eq_some_iff`: what remains of a file, and
  `readTrimmed?_of_endsInDirectory`: what can only be a directory is not read;
* `AlikeOutside` are trees that differ in files at some places, and `AlikeOutside.readTrimmed?_eq`
  says which paths do not tell them apart.
-/
import HardwareCounters.FileTree
import Mathlib.Data.List.Basic

namespace HardwareCounters

/-! ## 1. The place of a path -/

/-- The name of a file leads into a directory. -/
theorem PathStep.ofPath_name (name : FileName) : PathStep.ofPath name.text = [.down name] := by
  obtain ⟨text, hproper⟩ := name
  rw [PathStep.ofPath, Text.splitOn_of_not_mem hproper.2.2.2]
  simp [PathStep.ofText?, FileName.ofText?, hproper]

/-- A text without slashes is at most one step. -/
theorem PathStep.ofPath_of_slash_not_mem {part : Text} (h : '/' ∉ part) :
    PathStep.ofPath part = [] ∨ PathStep.ofPath part = [.up] ∨
      ∃ name : FileName, name.text = part ∧ PathStep.ofPath part = [.down name] := by
  rw [PathStep.ofPath, Text.splitOn_of_not_mem h]
  by_cases hup : part = ['.', '.']
  · exact Or.inr (Or.inl (by simp [PathStep.ofText?, hup]))
  · by_cases hproper : part ≠ [] ∧ part ≠ ['.'] ∧ part ≠ ['.', '.'] ∧ '/' ∉ part
    · refine Or.inr (Or.inr ⟨⟨part, hproper⟩, rfl, ?_⟩)
      simp [PathStep.ofText?, FileName.ofText?, hproper]
    · have hnone : PathStep.ofText? part = none := by
        rw [PathStep.ofText?, if_neg hup, FileName.ofText?, dif_neg hproper]
        rfl
      exact Or.inl (List.filterMap_cons_none hnone)

namespace FileTree

/-- The paths inside a directory lead from the same place. -/
theorem exists_placeOf_joinPath (tree : FileTree) (directory : Text) :
    ∃ place, ∀ path : Text, path.head? ≠ some '/' →
      tree.placeOf (joinPath directory path) = (PathStep.ofPath path).foldl Place.follow place := by
  by_cases hends : directory = [] ∨ directory.getLast? = some '/'
  · rcases hends with rfl | hlast
    · refine ⟨tree.workingDirectory, fun path hpath => ?_⟩
      simp [joinPath, hpath, placeOf, startOf]
    · obtain ⟨front, rfl⟩ := List.getLast?_eq_some_iff.mp hlast
      refine ⟨(PathStep.ofPath front).foldl Place.follow (tree.startOf (front ++ ['/'])), ?_⟩
      intro path hpath
      have hjoin : joinPath (front ++ ['/']) path = front ++ '/' :: path := by
        simp [joinPath, hpath]
      have hstart : tree.startOf (front ++ '/' :: path) = tree.startOf (front ++ ['/']) := by
        cases front <;> rfl
      rw [hjoin, placeOf, hstart, PathStep.ofPath_append, List.foldl_append]
  · refine ⟨tree.placeOf directory, fun path hpath => ?_⟩
    rw [joinPath, if_neg hpath, if_neg hends,
      placeOf_append tree path fun hnil => hends (Or.inl hnil)]

/-! ## 2. Walks -/

section Walking

variable {tree other : FileTree} {place reached : Place} {next : PathStep} {steps : List PathStep}

/-- A step is made from a directory, and leads to its end. -/
theorem follow_of_step (h : tree.step place next = .ok reached) :
    tree.find? place = some .directory ∧ reached = place.follow next := by
  rw [step.eq_def] at h
  split at h
  · cases h
  · cases h
  · rename_i hfound
    refine ⟨hfound, ?_⟩
    split at h
    · exact (Except.ok.inj h).symm
    · split at h
      · cases h
      · split at h
        · cases h
        · exact (Except.ok.inj h).symm

/-- A step looks at the places where it starts and where it ends. -/
theorem step_congr (hstart : tree.find? place = other.find? place)
    (hend : tree.find? (place.follow next) = other.find? (place.follow next)) :
    tree.step place next = other.step place next := by
  rw [step.eq_def, step.eq_def, hstart]
  cases next with
  | up => rfl
  | down name => simp only [hend]

theorem walk_cons_eq_ok_iff :
    tree.walk place (next :: steps) = .ok reached ↔
      tree.step place next = .ok (place.follow next) ∧
        tree.walk (place.follow next) steps = .ok reached := by
  rw [walk]
  cases hstep : tree.step place next with
  | error e => simp
  | ok following =>
    obtain ⟨-, rfl⟩ := follow_of_step hstep
    simp

theorem eq_foldl_of_walk (h : tree.walk place steps = .ok reached) :
    reached = steps.foldl Place.follow place := by
  induction steps generalizing place with
  | nil => exact (Except.ok.inj h).symm
  | cons next steps ih => exact ih (walk_cons_eq_ok_iff.mp h).2

end Walking

/-! ## 3. What is found and read -/

/-- What stands at a path: the path can be opened, its steps lead to the place, and unless there is a
directory the path does not ask for one. -/
theorem entryAt_eq_ok_iff {tree : FileTree} {path : Text} {entry : Entry} :
    tree.entryAt path = .ok entry ↔
      (Char.ofNat 0 ∉ path ∧ path ≠ [] ∧ utf8Length path ≤ maxPathLength) ∧
        ∃ place, tree.walk (tree.startOf path) (PathStep.ofPath path) = .ok place ∧
          tree.find? place = some entry ∧
          (entry = .directory ∨ PathStep.endsInDirectory path = false) := by
  rw [entryAt]
  by_cases hnul : Char.ofNat 0 ∈ path
  · simp [hnul]
  by_cases hempty : path = []
  · simp [hempty]
  by_cases hlong : maxPathLength < utf8Length path
  · simp [hnul, hempty, hlong, Nat.not_le_of_lt hlong]
  rw [if_neg hnul, if_neg hempty, if_neg hlong,
    and_iff_right ⟨hnul, hempty, Nat.le_of_not_lt hlong⟩]
  cases tree.walk (tree.startOf path) (PathStep.ofPath path) with
  | error e => simp
  | ok place =>
    simp only [Except.ok.injEq, exists_eq_left']
    cases tree.find? place with
    | none => simp
    | some found =>
      rw [Option.some.injEq]
      cases found with
      | directory =>
        rw [Except.ok.injEq]
        exact ⟨fun hentry => ⟨hentry, Or.inl hentry.symm⟩, And.left⟩
      | file content =>
        cases PathStep.endsInDirectory path with
        | true =>
          simp only [if_true, reduceCtorEq, or_false, false_iff]
          rintro ⟨rfl, hdirectory⟩
          cases hdirectory
        | false => simp

theorem read_eq_ok_iff {tree : FileTree} {path t : Text} :
    tree.read path = .ok t ↔ tree.entryAt path = .ok (.file (.text t)) := by
  rw [read]
  split <;> simp_all

/-- What remains of a file are the characters between the blanks at its ends, if there are any. -/
theorem readTrimmed?_eq_some_iff {tree : FileTree} {path rest : Text} :
    tree.readTrimmed? path = some rest ↔
      ∃ t, tree.read path = .ok t ∧ Text.trim t = rest ∧ rest ≠ [] := by
  rw [readTrimmed?]
  cases tree.read path with
  | error e => simp
  | ok t =>
    by_cases hblank : Text.trim t = []
    · simp only [hblank, if_true, reduceCtorEq, Except.ok.injEq, false_iff]
      rintro ⟨other, rfl, hrest, hne⟩
      exact hne (hrest.symm.trans hblank)
    · simp only [hblank, if_false, Option.some.injEq, Except.ok.injEq, exists_eq_left']
      exact ⟨fun h => ⟨h, h ▸ hblank⟩, And.left⟩

/-- A path that ends with a slash can only stand for a directory. -/
theorem endsInDirectory_concat (path : Text) : PathStep.endsInDirectory (path ++ ['/']) = true := by
  rw [PathStep.endsInDirectory, Text.splitOn_append]
  simp [Text.splitOn, FileName.ofText?]

/-- What can only be a directory is not read. -/
theorem readTrimmed?_of_endsInDirectory {tree : FileTree} {path : Text}
    (h : PathStep.endsInDirectory path = true) : tree.readTrimmed? path = none := by
  cases hread : tree.read path with
  | error e => rw [readTrimmed?, hread]
  | ok t =>
    obtain ⟨-, place, -, -, hdirectory | hfile⟩ := entryAt_eq_ok_iff.mp (read_eq_ok_iff.mp hread)
    · cases hdirectory
    · rw [h] at hfile
      cases hfile

/-! ## 4. Trees that differ at a few places -/

/-- Trees that differ only in which files stand at some places, and in what these hold. -/
structure AlikeOutside (differing : Place → Prop) (tree other : FileTree) : Prop where
  workingDirectory_eq : tree.workingDirectory = other.workingDirectory
  alike : ∀ place, tree.find? place = other.find? place ∨
    (differing place ∧ tree.find? place ≠ some .directory ∧ other.find? place ≠ some .directory)

variable {differing : Place → Prop} {tree other : FileTree} {place reached : Place}
  {steps : List PathStep} {path : Text}

theorem AlikeOutside.symm (h : AlikeOutside differing tree other) :
    AlikeOutside differing other tree where
  workingDirectory_eq := h.workingDirectory_eq.symm
  alike := by
    intro place
    rcases h.alike place with heq | ⟨hplace, htree, hother⟩
    · exact Or.inl heq.symm
    · exact Or.inr ⟨hplace, hother, htree⟩

/-- Trees do not differ where a walk starts that ends outside the places where they differ. -/
theorem AlikeOutside.find?_eq (h : AlikeOutside differing tree other)
    (hwalk : tree.walk place steps = .ok reached) (hreached : ¬ differing reached) :
    tree.find? place = other.find? place := by
  rcases h.alike place with heq | ⟨hplace, htree, -⟩
  · exact heq
  · cases steps with
    | nil =>
      obtain rfl : place = reached := Except.ok.inj hwalk
      exact absurd hplace hreached
    | cons next steps =>
      exact absurd (follow_of_step (walk_cons_eq_ok_iff.mp hwalk).1).1 htree

theorem AlikeOutside.walk_eq_ok (h : AlikeOutside differing tree other)
    (hwalk : tree.walk place steps = .ok reached) (hreached : ¬ differing reached) :
    other.walk place steps = .ok reached := by
  induction steps generalizing place with
  | nil => exact hwalk
  | cons next steps ih =>
    obtain ⟨hstep, hrest⟩ := walk_cons_eq_ok_iff.mp hwalk
    have hsame : tree.step place next = other.step place next :=
      step_congr (h.find?_eq hwalk hreached) (h.find?_eq hrest hreached)
    exact walk_cons_eq_ok_iff.mpr ⟨hsame ▸ hstep, ih hrest⟩

/-- What is read at a path outside the places where the trees differ is read in both. -/
theorem AlikeOutside.read_eq_ok (h : AlikeOutside differing tree other) {t : Text}
    (hread : tree.read path = .ok t) (hplace : ¬ differing (tree.placeOf path)) :
    other.read path = .ok t := by
  obtain ⟨hopen, reached, hwalk, hfound, hends⟩ := entryAt_eq_ok_iff.mp (read_eq_ok_iff.mp hread)
  have hreached : ¬ differing reached := by
    rw [eq_foldl_of_walk hwalk]
    exact hplace
  have hstart : other.startOf path = tree.startOf path := by
    rw [startOf, startOf, h.workingDirectory_eq]
  have hstay : tree.walk reached [] = .ok reached := rfl
  refine read_eq_ok_iff.mpr (entryAt_eq_ok_iff.mpr ⟨hopen, reached, ?_, ?_, hends⟩)
  · rw [hstart]
    exact h.walk_eq_ok hwalk hreached
  · rw [← h.find?_eq hstay hreached]
    exact hfound

/-- **Where trees look alike.**  A file outside the places where they differ is read alike. -/
theorem AlikeOutside.readTrimmed?_eq (h : AlikeOutside differing tree other)
    (hplace : ¬ differing (tree.placeOf path)) :
    tree.readTrimmed? path = other.readTrimmed? path := by
  have hotherPlace : ¬ differing (other.placeOf path) := by
    rwa [placeOf, startOf, ← h.workingDirectory_eq]
  rw [readTrimmed?, readTrimmed?]
  cases hread : tree.read path with
  | ok t => rw [h.read_eq_ok hread hplace]
  | error e =>
    cases hother : other.read path with
    | error fault => rfl
    | ok t =>
      rw [h.symm.read_eq_ok hother hotherPlace] at hread
      cases hread

end FileTree

end HardwareCounters
