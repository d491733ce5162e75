/-
# The files of bit fields and aliases

The bit field of a key is a file in one directory of a PMU, its alias a file in another.  A key without
slashes leads no further than into these directories or out of them, so two descriptions of the PMU
whose aliases differ are told apart by the keys of those aliases only.

* `format?_nil`: there is no bit field without a key;
* `AliasesDiffer` are descriptions that differ in aliases, but not in those with the given keys;
* `AliasesDiffer.format?_eq` and `AliasesDiffer.alias?_eq`: what is not told apart.
-/
import HardwareCounters.Proofs.FileTree.Reading
import HardwareCounters.Sysfs.Basic

namespace HardwareCounters

namespace Sysfs

variable {s s' : Sysfs} {directory key : Text} {keys : List Text}

/-! ## 1. What is read -/

/-- What is read from a file is trimmed. -/
theorem trim_of_read? {file text : Text} (h : s.read? directory file = some text) :
    Text.trim text = text := by
  rw [read?, FileTree.readTrimmed?] at h
  split at h
  · cases h
  · split at h
    · cases h
    · obtain rfl := Option.some.inj h
      exact Text.trim_trim _

/-- There is no bit field without a key. -/
theorem format?_nil (s : Sysfs) (directory : Text) : s.format? directory [] = none := by
  have hpath : ∃ front, s.pathOf directory (formatDirectory ++ ['/']) = front ++ ['/'] := by
    rw [pathOf, FileTree.joinPath, if_neg (by decide)]
    split
    · exact ⟨_, (List.append_assoc _ _ _).symm⟩
    · exact ⟨FileTree.joinPath s.root directory ++ '/' :: formatDirectory, by simp⟩
  obtain ⟨front, hfront⟩ := hpath
  rw [format?, read?, hfront]
  exact FileTree.readTrimmed?_of_endsInDirectory (FileTree.endsInDirectory_concat front)

/-! ## 2. Where the files are -/

def formatName : FileName := ⟨formatDirectory, by decide⟩

def eventsName : FileName := ⟨eventsDirectory, by decide⟩

/-- The place of an alias of a PMU. -/
def aliasPlace (s : Sysfs) (directory : Text) (name : FileName) : Place :=
  s.files.placeOf (s.pathOf directory eventsDirectory) ++ [name]

/-- The directories of a PMU lie in one place, and a path into them leads on from there. -/
theorem exists_placeOf_pathOf (s : Sysfs) (directory : Text) :
    ∃ place : Place, ∀ name : FileName,
      s.files.placeOf (s.pathOf directory name.text) = place ++ [name] ∧
      ∀ key, s.files.placeOf (s.pathOf directory (name.text ++ '/' :: key)) =
        (PathStep.ofPath key).foldl Place.follow (place ++ [name]) := by
  obtain ⟨place, hplace⟩ := s.files.exists_placeOf_joinPath (FileTree.joinPath s.root directory)
  refine ⟨place, fun name => ?_⟩
  obtain ⟨c, rest, hname⟩ := List.exists_cons_of_ne_nil name.proper.1
  have hslash : ∀ more, (name.text ++ more).head? ≠ some '/' := by
    intro more hhead
    refine name.proper.2.2.2 ?_
    rw [hname] at hhead ⊢
    exact Option.some.inj hhead ▸ List.mem_cons_self
  constructor
  · rw [pathOf, hplace _ (by simpa using hslash []), PathStep.ofPath_name]
    rfl
  · intro key
    rw [pathOf, hplace _ (hslash _), PathStep.ofPath_append, PathStep.ofPath_name, List.foldl_append]
    rfl

/-- A key without slashes leads to the file of that name or out of the directory. -/
theorem foldl_follow_cases (hslash : '/' ∉ key) (place : Place) :
    (∃ name : FileName, name.text = key ∧
      (PathStep.ofPath key).foldl Place.follow place = place ++ [name]) ∨
      ((PathStep.ofPath key).foldl Place.follow place).length ≤ place.length := by
  rcases PathStep.ofPath_of_slash_not_mem hslash with hnone | hup | ⟨name, hname, hdown⟩
  · exact Or.inr (by simp [hnone])
  · exact Or.inr (by simp [hup, Place.follow])
  · exact Or.inl ⟨name, hname, by simp [hdown, Place.follow]⟩

/-! ## 3. Descriptions whose aliases differ -/

/-- The place of an alias with none of the keys. -/
def OtherAlias (s : Sysfs) (directory : Text) (keys : List Text) (place : Place) : Prop :=
  ∃ name : FileName, name.text ∉ keys ∧ place = s.aliasPlace directory name

/-- A key without slashes leads to such an alias only in the directory of the aliases, and only if it
is none of the keys. -/
theorem not_otherAlias (hslash : '/' ∉ key) (name : FileName) (h : name = eventsName → key ∈ keys) :
    ¬ s.OtherAlias directory keys (s.files.placeOf (s.pathOf directory (name.text ++ '/' :: key))) := by
  obtain ⟨place, hplaces⟩ := s.exists_placeOf_pathOf directory
  have hevents : s.files.placeOf (s.pathOf directory eventsDirectory) = place ++ [eventsName] :=
    (hplaces eventsName).1
  rintro ⟨other, hother, hplace⟩
  rw [(hplaces name).2, aliasPlace, hevents] at hplace
  rcases foldl_follow_cases hslash (place ++ [name]) with ⟨file, rfl, hfile⟩ | hshort
  · rw [hfile] at hplace
    obtain ⟨rfl, rfl⟩ : name = eventsName ∧ file = other := by simpa using hplace
    exact hother (h rfl)
  · rw [hplace] at hshort
    simp at hshort

/-- Two descriptions differ only in which aliases of a PMU there are that have none of the keys, and
in what these stand for. -/
structure AliasesDiffer (s s' : Sysfs) (directory : Text) (keys : List Text) : Prop where
  root_eq : s.root = s'.root
  files_alike : FileTree.AlikeOutside (s.OtherAlias directory keys) s.files s'.files

/-- An alias with none of the keys may be added, or stand for something else. -/
theorem aliasesDiffer_put {name : FileName} (hname : name.text ∉ keys)
    (hplace : s.files.find? (s.aliasPlace directory name) ≠ some .directory) (content : Content) :
    s.AliasesDiffer ⟨s.root, s.files.put (s.aliasPlace directory name) (.file content)⟩ directory
      keys where
  root_eq := rfl
  files_alike :=
    { workingDirectory_eq := rfl
      alike := by
        intro place
        rcases eq_or_ne place [] with rfl | hne
        · exact Or.inl rfl
        rw [FileTree.find?_put _ _ hne]
        split
        · rename_i heq
          exact Or.inr ⟨⟨name, hname, heq⟩, heq ▸ hplace, by simp⟩
        · exact Or.inl rfl }

/-- A file of a PMU that is none of the differing aliases is read alike. -/
theorem AliasesDiffer.read?_eq (h : s.AliasesDiffer s' directory keys) {file : Text}
    (hplace : ¬ s.OtherAlias directory keys (s.files.placeOf (s.pathOf directory file))) :
    s.read? directory file = s'.read? directory file := by
  have hpath : s'.pathOf directory file = s.pathOf directory file := by
    rw [pathOf, pathOf, h.root_eq]
  rw [read?, read?, hpath]
  exact h.files_alike.readTrimmed?_eq hplace

theorem AliasesDiffer.format?_eq (h : s.AliasesDiffer s' directory keys) (hslash : '/' ∉ key) :
    s.format? directory key = s'.format? directory key :=
  h.read?_eq (not_otherAlias hslash formatName fun hevents => absurd hevents (by decide))

theorem AliasesDiffer.alias?_eq (h : s.AliasesDiffer s' directory keys) (hslash : '/' ∉ key)
    (hkey : key ∈ keys) : s.alias? directory key = s'.alias? directory key :=
  h.read?_eq (not_otherAlias hslash eventsName fun _ => hkey)

end Sysfs

end HardwareCounters
