/-
# The PMUs and the aliases that are found

PMUs and aliases are found by patterns that start with the root.  A root with signs in it is a pattern
itself, and what is found may lie outside the tree below it.  For a root without signs what is found are
the files below the root, and each is read by its path below the root as it is read where it was found.
Only a path that is too long would not be read, and it can be longer than what was found if the root has
parts that lead nowhere.

* `PlainRoot`: the roots that stand for themselves;
* `exists_names_of_found`: what is found below such a root;
* `exists_typeOf?_of_pmuName?`: the PMU that is found by a type id, and
  `exists_alias?_of_mem_kernelEvents`: the alias of an event that is listed.
-/
import HardwareCounters.Proofs.FileTree.Search
import HardwareCounters.Proofs.Sysfs.Files
import HardwareCounters.Proofs.Text.Runs

namespace HardwareCounters

/-! ## 1. Paths of names -/

/-- A place as a path from another one. -/
def Place.path (names : Place) : Text := Text.joinWith ['/'] (names.map FileName.text)

section Names

variable {names : Place} {path directory : Text}

theorem Place.path_cons_cons (name next : FileName) (rest : Place) :
    Place.path (name :: next :: rest) = name.text ++ '/' :: Place.path (next :: rest) := by
  rw [path, List.map_cons, List.map_cons, Text.joinWith, List.append_assoc]
  rfl

theorem FileName.head?_ne_slash (name : FileName) (t : Text) : (name.text ++ t).head? ≠ some '/' := by
  obtain ⟨c, rest, hname⟩ := List.exists_cons_of_ne_nil name.proper.1
  rw [hname]
  rintro ⟨⟩
  exact name.proper.2.2.2 (hname ▸ List.mem_cons_self)

theorem Place.splitOn_path (hne : names ≠ []) :
    Text.splitOn '/' names.path = names.map FileName.text := by
  refine Text.splitOn_joinWith (by simpa using hne) fun piece hpiece => ?_
  obtain ⟨name, -, rfl⟩ := List.mem_map.mp hpiece
  exact name.proper.2.2.2

theorem Place.ofPath_path (hne : names ≠ []) : PathStep.ofPath names.path = names.map .down := by
  rw [PathStep.ofPath, splitOn_path hne, List.filterMap_map]
  have hstep : PathStep.ofText? ∘ FileName.text = some ∘ PathStep.down := by
    funext name
    obtain ⟨text, hproper⟩ := name
    simp [PathStep.ofText?, FileName.ofText?, hproper]
  rw [hstep]
  exact congrFun List.filterMap_eq_map _

theorem Place.head?_path (hne : names ≠ []) : names.path.head? ≠ some '/' := by
  obtain ⟨name, rest, rfl⟩ := List.exists_cons_of_ne_nil hne
  obtain ⟨more, hmore⟩ := Text.exists_rest ['/'] name.text (rest.map FileName.text)
  rw [path, List.map_cons, hmore]
  exact name.head?_ne_slash more

/-- A path of names asks for no directory. -/
theorem Place.endsInDirectory_path (hne : names ≠ []) (front : Text) :
    PathStep.endsInDirectory (front ++ '/' :: names.path) = false := by
  obtain ⟨init, last, rfl⟩ := (List.eq_nil_or_concat' names).resolve_left hne
  obtain ⟨text, hproper⟩ := last
  rw [PathStep.endsInDirectory, Text.splitOn_append, splitOn_path hne]
  simp [FileName.ofText?, hproper]

theorem FileTree.utf8Length_append (t rest : Text) :
    utf8Length (t ++ rest) = utf8Length t + utf8Length rest := by
  simp [utf8Length, String.ofList_append]

/-- A path of names is no longer than its names and the slashes between them. -/
theorem Place.utf8Length_path_lt {bound : Nat} (hne : names ≠ [])
    (h : ∀ name ∈ names, FileTree.utf8Length name.text ≤ bound) :
    FileTree.utf8Length names.path < names.length * (bound + 1) := by
  induction names with
  | nil => exact absurd rfl hne
  | cons name names ih =>
    obtain ⟨hname, hnames⟩ := List.forall_mem_cons.mp h
    rcases eq_or_ne names [] with rfl | hmore
    · simpa [path, Text.joinWith, Nat.lt_succ_iff] using hname
    · have hslash : FileTree.utf8Length ['/'] = 1 := rfl
      have hrest := ih hmore hnames
      rw [path, List.map_cons, Text.joinWith_cons (by simpa using hmore), ← path,
        FileTree.utf8Length_append, FileTree.utf8Length_append, hslash, List.length_cons,
        Nat.succ_mul]
      omega

/-- A path inside a directory goes on behind a slash. -/
theorem FileTree.exists_joinPath_eq (hdirectory : directory ≠ []) :
    ∃ front, PathStep.ofPath front = PathStep.ofPath directory ∧
      utf8Length front ≤ utf8Length directory ∧
      (front = directory ∨ directory = front ++ ['/']) ∧
      ∀ path : Text, path.head? ≠ some '/' → joinPath directory path = front ++ '/' :: path := by
  by_cases hlast : directory.getLast? = some '/'
  · obtain ⟨front, rfl⟩ := List.getLast?_eq_some_iff.mp hlast
    refine ⟨front, ?_, ?_, Or.inr rfl, fun path hpath => ?_⟩
    · rw [PathStep.ofPath_append]
      exact (List.append_nil _).symm
    · rw [utf8Length_append]
      exact Nat.le_add_right _ _
    · simp [joinPath, hpath]
  · refine ⟨directory, rfl, Nat.le_refl _, Or.inl rfl, fun path hpath => ?_⟩
    rw [joinPath, if_neg hpath, if_neg (not_or.mpr ⟨hdirectory, hlast⟩)]

end Names

/-! ## 2. What is found below a root -/

namespace Glob

/-- A star is the name of a file, too. -/
def starName : FileName := ⟨star, by decide⟩

/-- The pattern and what is found for it, where both are made of names. -/
def FitsName (part name : FileName) : Prop := part = starName ∨ part = name

theorem fits_iff {part : FileName} {t : Text} :
    Fits part.text t ↔ ∃ name : FileName, name.text = t ∧ FitsName part name := by
  constructor
  · intro h
    generalize htext : part.text = text at h
    cases h with
    | itself => exact ⟨part, htext, Or.inr rfl⟩
    | name name =>
      obtain ⟨text, hproper⟩ := part
      obtain rfl : text = star := htext
      exact ⟨name, rfl, Or.inl rfl⟩
  · rintro ⟨name, rfl, rfl | rfl⟩
    · exact .name name
    · exact .itself _

theorem exists_names_of_fits {parts : Place} {pieces : List Text}
    (h : List.Forall₂ Fits (parts.map FileName.text) pieces) :
    ∃ names : Place, names.map FileName.text = pieces ∧ List.Forall₂ FitsName parts names := by
  induction parts generalizing pieces with
  | nil =>
    cases h
    exact ⟨[], rfl, .nil⟩
  | cons part parts ih =>
    obtain ⟨piece, rest, hfit, hrest, rfl⟩ := List.forall₂_cons_left_iff.mp h
    obtain ⟨name, rfl, hname⟩ := fits_iff.mp hfit
    obtain ⟨names, rfl, hnames⟩ := ih hrest
    exact ⟨name :: names, rfl, .cons hname hnames⟩

/-- In front of the first star stands what the pattern says. -/
theorem exists_rest_of_fits {front parts pieces : List Text} (hstar : star ∉ front)
    (h : List.Forall₂ Fits (front ++ parts) pieces) :
    ∃ rest, pieces = front ++ rest ∧ List.Forall₂ Fits parts rest := by
  induction front generalizing pieces with
  | nil => exact ⟨pieces, rfl, h⟩
  | cons part front ih =>
    obtain ⟨hne, hstar⟩ := not_or.mp (List.mem_cons.not.mp hstar)
    obtain ⟨piece, more, hfit, hmore, rfl⟩ := List.forall₂_cons_left_iff.mp h
    obtain ⟨rest, rfl, hrest⟩ := ih hstar hmore
    cases hfit with
    | itself => exact ⟨rest, rfl, hrest⟩
    | name => exact absurd rfl hne

end Glob

namespace Sysfs

/-- The root stands for itself in a pattern.  It leaves room for three names, or has no part that leads
nowhere. -/
structure PlainRoot (s : Sysfs) : Prop where
  ne_nil : s.root ≠ []
  not_isSign : ∀ c ∈ s.root, Glob.isSign c = false
  roomy : PathStep.Tidy s.root ∨
    FileTree.utf8Length s.root + 3 * (FileTree.maxNameLength + 1) ≤ FileTree.maxPathLength

variable {s : Sysfs} {glob : Glob} {parts : Place} {found : List (Option Text)} {path : Text}

/-- A pattern below the root is filled by names below the root. -/
theorem PlainRoot.exists_names_of_filled (h : s.PlainRoot) (hne : parts ≠ []) {filled : Text}
    (hfilled : Glob.Filled (s.root ++ '/' :: parts.path) filled) :
    ∃ names : Place, List.Forall₂ Glob.FitsName parts names ∧
      filled = s.root ++ '/' :: names.path := by
  rw [Glob.Filled, Text.splitOn_append, Place.splitOn_path hne] at hfilled
  have hstar : Glob.star ∉ Text.splitOn '/' s.root := by
    intro hmem
    have hsign := h.not_isSign '*' (by
      rw [← Text.joinWith_splitOn '/' s.root]
      exact Text.mem_joinWith_of_mem _ hmem List.mem_cons_self)
    exact absurd hsign (by decide)
  obtain ⟨rest, hpieces, hfits⟩ := Glob.exists_rest_of_fits hstar hfilled
  obtain ⟨names, rfl, hnames⟩ := Glob.exists_names_of_fits hfits
  have hnamesNe : names ≠ [] := by
    rintro rfl
    cases hnames
    exact hne rfl
  refine ⟨names, hnames, ?_⟩
  rw [← Text.joinWith_splitOn '/' filled, hpieces, ← Place.splitOn_path hnamesNe,
    ← Text.splitOn_append, Text.joinWith_splitOn]

/-- Below the root there are only signs that stand for names. -/
theorem PlainRoot.plain_pattern (h : s.PlainRoot) (hne : parts ≠ [])
    (hparts : ∀ part ∈ parts, part = Glob.starName ∨ ∀ c ∈ part.text, Glob.isSign c = false) :
    Glob.Plain (s.root ++ '/' :: parts.path) := by
  intro part hpart
  rw [Text.splitOn_append, Place.splitOn_path hne, List.mem_append] at hpart
  rcases hpart with hroot | hbelow
  · refine Or.inr fun c hc => h.not_isSign c ?_
    rw [← Text.joinWith_splitOn '/' s.root]
    exact Text.mem_joinWith_of_mem _ hroot hc
  · obtain ⟨name, hname, rfl⟩ := List.mem_map.mp hbelow
    exact (hparts name hname).imp_left (congrArg FileName.text)

theorem tidy_append (h : PathStep.Tidy s.root) (hne : parts ≠ []) :
    PathStep.Tidy (s.root ++ '/' :: parts.path) := by
  obtain ⟨hdot, hnil⟩ := h
  have htail : (Text.splitOn '/' s.root ++ parts.map FileName.text).tail =
      (Text.splitOn '/' s.root).tail ++ parts.map FileName.text :=
    List.tail_append_of_ne_nil (Text.splitOn_ne_nil _ _)
  constructor
  · rw [Text.splitOn_append, Place.splitOn_path hne, List.mem_append, List.mem_map]
    rintro (hroot | ⟨name, -, hname⟩)
    · exact hdot hroot
    · exact name.proper.2.1 hname
  · rw [Text.splitOn_append, Place.splitOn_path hne, htail, List.mem_append, List.mem_map]
    rintro (hroot | ⟨name, -, hname⟩)
    · exact hnil hroot
    · exact name.proper.1 hname

/-- A tidy root does not end with a slash. -/
theorem ne_concat_slash (h : PathStep.Tidy s.root) (front : Text) : s.root ≠ front ++ ['/'] := by
  intro hroot
  refine h.nil_not_mem ?_
  rw [hroot, Text.splitOn_append, List.tail_append_of_ne_nil (Text.splitOn_ne_nil _ _)]
  exact List.mem_append_right _ List.mem_cons_self

/-- Where a root leaves room for three names, a path of so many names below it is not too long. -/
theorem utf8Length_below_le {names : Place} {front : Text} (hne : names ≠ [])
    (hcount : names.length ≤ 3)
    (hnames : ∀ name ∈ names, FileTree.utf8Length name.text ≤ FileTree.maxNameLength)
    (hshort : FileTree.utf8Length front ≤ FileTree.utf8Length s.root)
    (hroom : FileTree.utf8Length s.root + 3 * (FileTree.maxNameLength + 1) ≤ FileTree.maxPathLength) :
    FileTree.utf8Length (front ++ '/' :: names.path) ≤ FileTree.maxPathLength := by
  have hlt := Place.utf8Length_path_lt hne hnames
  have hslash : FileTree.utf8Length ('/' :: names.path) = 1 + FileTree.utf8Length names.path :=
    FileTree.utf8Length_append ['/'] names.path
  have hthree := Nat.mul_le_mul_right (FileTree.maxNameLength + 1) hcount
  rw [FileTree.utf8Length_append, hslash]
  omega

/-- **What is found below a root** makes the steps of the root and those of names that fit the pattern,
and it is read by the path of these names as it is read where it was found. -/
theorem exists_names_of_found (hglob : glob.Sound) (h : s.PlainRoot) (hne : parts ≠ [])
    (hlength : parts.length ≤ 3)
    (hparts : ∀ part ∈ parts, part = Glob.starName ∨ ∀ c ∈ part.text, Glob.isSign c = false)
    (hfound : glob s.files (s.root ++ '/' :: parts.path) = some found) (hpath : some path ∈ found) :
    ∃ names : Place, List.Forall₂ Glob.FitsName parts names ∧
      PathStep.ofPath path = PathStep.ofPath s.root ++ names.map .down ∧
      ∀ t, s.files.readTrimmed? path = some t →
        s.files.readTrimmed? (FileTree.joinPath s.root names.path) = some t := by
  obtain ⟨filled, hfilled, hsame, htidy⟩ := hglob (h.plain_pattern hne hparts) hfound hpath
  obtain ⟨names, hnames, rfl⟩ := h.exists_names_of_filled hne hfilled
  have hnamesNe : names ≠ [] := by
    rintro rfl
    cases hnames
    exact hne rfl
  have hsteps : PathStep.ofPath path = PathStep.ofPath s.root ++ names.map .down := by
    rw [hsame.ofPath_eq, PathStep.ofPath_append, Place.ofPath_path hnamesNe]
  refine ⟨names, hnames, hsteps, fun t ht => ?_⟩
  obtain ⟨front, hfront, hshort, hslash, hjoin⟩ := FileTree.exists_joinPath_eq h.ne_nil
  rw [hjoin _ (Place.head?_path hnamesNe)]
  obtain ⟨_, hread, -⟩ := FileTree.readTrimmed?_eq_some_iff.mp ht
  obtain ⟨⟨-, -, hopen⟩, _, hwalk, -⟩ :=
    FileTree.entryAt_eq_ok_iff.mp (FileTree.read_eq_ok_iff.mp hread)
  refine FileTree.readTrimmed?_of_sameWay ⟨?_, ?_⟩ ?_ (Place.endsInDirectory_path hnamesNe front) ht
  · rw [hsame.head_iff]
    rcases hslash with rfl | hroot
    · exact Iff.rfl
    · rw [hroot]
      cases front <;> exact Iff.rfl
  · rw [hsteps, PathStep.ofPath_append, Place.ofPath_path hnamesNe, hfront]
  · rcases h.roomy with hroot | hroom
    · obtain rfl : front = s.root := hslash.resolve_right (ne_concat_slash hroot front)
      rwa [← htidy (tidy_append hroot hne)]
    · refine utf8Length_below_le hnamesNe (hnames.length_eq ▸ hlength) (fun name hname => ?_) hshort
        hroom
      refine FileTree.utf8Length_le_of_walk hwalk ?_
      rw [hsteps]
      exact List.mem_append_right _ (List.mem_map_of_mem hname)

/-! ## 3. PMUs and aliases -/

/-- The name of the file with the type id. -/
def typeName : FileName := ⟨typeFile, by decide⟩

theorem not_isSign_typeName : ∀ c ∈ typeName.text, Glob.isSign c = false :=
  Text.forall_mem_of_all (by decide)

theorem not_isSign_eventsName : ∀ c ∈ eventsName.text, Glob.isSign c = false :=
  Text.forall_mem_of_all (by decide)

/-- The first file with the type id is one of those that are found. -/
theorem mem_of_pmuNameAmong {id : BitVec 32} {pmu : Text}
    (h : s.pmuNameAmong id found = .ok (some pmu)) :
    ∃ path t, some path ∈ found ∧ s.files.readTrimmed? path = some t ∧ readType? t = some id ∧
      PathStep.nameAbove? 1 path = some pmu := by
  induction found with
  | nil => cases h
  | cons path? found ih =>
    cases path? with
    | none => cases h
    | some path =>
      rw [pmuNameAmong] at h
      split at h
      · rename_i htype
        obtain ⟨t, ht, htype⟩ := Option.bind_eq_some_iff.mp htype
        exact ⟨path, t, List.mem_cons_self, ht, htype, Except.ok.inj h⟩
      · obtain ⟨other, t, hmem, hother⟩ := ih h
        exact ⟨other, t, List.mem_cons_of_mem _ hmem, hother⟩

/-- The files of a PMU below the root. -/
theorem PlainRoot.pathOf_name (h : s.PlainRoot) (name : FileName) {file : Text}
    (hfile : file.head? ≠ some '/') :
    s.pathOf name.text file = FileTree.joinPath s.root (name.text ++ '/' :: file) := by
  obtain ⟨front, -, -, -, hjoin⟩ := FileTree.exists_joinPath_eq h.ne_nil
  have hname := hjoin name.text (by simpa using name.head?_ne_slash [])
  have hlast : (front ++ '/' :: name.text).getLast? ≠ some '/' := by
    obtain ⟨init, last, hconcat⟩ := (List.eq_nil_or_concat' name.text).resolve_left name.proper.1
    rw [hconcat, ← List.cons_append, ← List.append_assoc, List.getLast?_concat]
    rintro ⟨⟩
    exact name.proper.2.2.2 (hconcat ▸ List.mem_append_right _ List.mem_cons_self)
  rw [pathOf, hname, hjoin _ (name.head?_ne_slash _), FileTree.joinPath, if_neg hfile,
    if_neg (not_or.mpr ⟨by simp, hlast⟩), List.append_assoc, List.cons_append]

theorem typePattern_eq (s : Sysfs) :
    s.typePattern = s.root ++ '/' :: Place.path [Glob.starName, typeName] := by
  rw [typePattern, List.append_assoc]
  rfl

/-- **The PMU that is found by a type id** is a directory below the root with this type id. -/
theorem PlainRoot.exists_typeOf?_of_pmuName? (hglob : glob.Sound) (h : s.PlainRoot) {id : BitVec 32}
    {pmu : Text} (hpmu : s.pmuName? glob id = .ok (some pmu)) :
    ∃ name : FileName, name.text = pmu ∧ s.typeOf? pmu = some id := by
  rw [pmuName?] at hpmu
  split at hpmu
  · cases hpmu
  rename_i found hfound
  obtain ⟨path, t, hpath, ht, htype, hname⟩ := mem_of_pmuNameAmong hpmu
  rw [typePattern_eq] at hfound
  have hparts : ∀ part ∈ [Glob.starName, typeName],
      part = Glob.starName ∨ ∀ c ∈ part.text, Glob.isSign c = false :=
    List.forall_mem_cons.mpr ⟨Or.inl rfl, List.forall_mem_singleton.mpr (Or.inr not_isSign_typeName)⟩
  obtain ⟨names, hnames, hsteps, hread⟩ := exists_names_of_found hglob h (List.cons_ne_nil _ _)
    (by decide) hparts hfound hpath
  -- what fits a star and a name is any name and this name
  obtain ⟨name, _, -, hrest, rfl⟩ := List.forall₂_cons_left_iff.mp hnames
  obtain ⟨file, _, hfile, hnil, rfl⟩ := List.forall₂_cons_left_iff.mp hrest
  obtain rfl := List.forall₂_nil_left_iff.mp hnil
  obtain rfl : typeName = file := hfile.resolve_left (by decide)
  obtain rfl : name.text = pmu := by
    simpa [PathStep.nameAbove?, hsteps] using hname
  refine ⟨name, rfl, ?_⟩
  rw [typeOf?, read?, h.pathOf_name name (by decide)]
  exact Option.bind_eq_some_iff.mpr ⟨t, Place.path_cons_cons name typeName [] ▸ hread t ht, htype⟩

theorem aliasPattern_eq (s : Sysfs) :
    s.aliasPattern =
      s.root ++ '/' :: Place.path [Glob.starName, eventsName, Glob.starName] := by
  rw [aliasPattern, List.append_assoc, List.append_assoc]
  rfl

/-- **An event that is listed** is spelled by an alias of a directory below the root, and by the terms
of this alias. -/
theorem PlainRoot.exists_alias?_of_mem_kernelEvents (hglob : glob.Sound) (h : s.PlainRoot)
    {events : List KernelEvent} {event : KernelEvent} (hevents : s.kernelEvents glob = .ok events)
    (hevent : event ∈ events) :
    ∃ (directory name : FileName) (terms : Text), event.pmu = directory.text ∧
      s.alias? event.pmu name.text = some terms ∧
      event.name = pmuEvent event.pmu name.text ∧ event.event = pmuEvent event.pmu terms := by
  rw [kernelEvents] at hevents
  split at hevents
  · cases hevents
  rename_i found hfound
  split at hevents
  · cases hevents
  obtain rfl := Except.ok.inj hevents
  obtain ⟨path?, hpath, hbind⟩ := List.mem_filterMap.mp hevent
  obtain ⟨path, rfl, hlisted⟩ := Option.bind_eq_some_iff.mp hbind
  rw [aliasPattern_eq] at hfound
  have hparts : ∀ part ∈ [Glob.starName, eventsName, Glob.starName],
      part = Glob.starName ∨ ∀ c ∈ part.text, Glob.isSign c = false :=
    List.forall_mem_cons.mpr ⟨Or.inl rfl, List.forall_mem_cons.mpr
      ⟨Or.inr not_isSign_eventsName, List.forall_mem_singleton.mpr (Or.inl rfl)⟩⟩
  obtain ⟨names, hnames, hsteps, hread⟩ := exists_names_of_found hglob h (List.cons_ne_nil _ _)
    (by decide) hparts hfound hpath
  obtain ⟨directory, _, -, hrest, rfl⟩ := List.forall₂_cons_left_iff.mp hnames
  obtain ⟨middle, _, hmiddle, hlast, rfl⟩ := List.forall₂_cons_left_iff.mp hrest
  obtain ⟨name, _, -, hnil, rfl⟩ := List.forall₂_cons_left_iff.mp hlast
  obtain rfl := List.forall₂_nil_left_iff.mp hnil
  obtain rfl := hmiddle.resolve_left (by decide)
  have hname : PathStep.nameAbove? 0 path = some name.text := by
    simp [PathStep.nameAbove?, hsteps]
  have hpmu : PathStep.nameAbove? 2 path = some directory.text := by
    simp [PathStep.nameAbove?, hsteps]
  simp only [kernelEvent?, hname, hpmu] at hlisted
  split at hlisted
  · cases hlisted
  obtain ⟨terms, hterms, rfl⟩ := Option.map_eq_some_iff.mp hlisted
  refine ⟨directory, name, terms, rfl, ?_, rfl, rfl⟩
  have hfile : (eventsDirectory ++ '/' :: name.text).head? ≠ some '/' := eventsName.head?_ne_slash _
  rw [alias?, read?, h.pathOf_name directory hfile]
  have hpath := hread terms hterms
  rw [Place.path_cons_cons, Place.path_cons_cons] at hpath
  exact hpath

end Sysfs

theorem Example.plainRoot_sys (files : FileTree) : (⟨"/sys".toList, files⟩ : Sysfs).PlainRoot := by
  have hne : "/sys".toList ≠ [] := by decide
  have hsigns : ∀ c ∈ "/sys".toList, Glob.isSign c = false := Text.forall_mem_of_all (by decide)
  have htidy : PathStep.Tidy "/sys".toList := ⟨by decide, by decide⟩
  exact ⟨hne, hsigns, Or.inl htidy⟩

end HardwareCounters
