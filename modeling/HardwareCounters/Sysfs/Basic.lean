/-
# The description of PMUs in sysfs

The kernel describes every PMU by a directory: its type id, the bit fields of its terms, aliases for
whole events, and the processors that count for it.  A file that cannot be read, or that is blank,
counts as missing.

Which PMUs and aliases there are is found by searching for paths below the root.  A search that fails is
an error of its own; a list of processors for which there is no room stops the program.
-/
import HardwareCounters.CpuList
import HardwareCounters.Glob

namespace HardwareCounters

/-- A file tree, and the path below which the PMU directories lie in it.  The path is a text like
any other: it may be relative, empty, or hold characters that mean something in a pattern. -/
structure Sysfs where
  root : Text
  files : FileTree

/-- An event that the kernel publishes by an alias. -/
structure KernelEvent where
  /-- The event by its alias. -/
  name : Text
  /-- The event by the terms that the alias stands for. -/
  event : Text
  /-- The PMU that counts the event. -/
  pmu : Text
  deriving DecidableEq, Repr

/-- The spelling of an event of a PMU, `<pmu>/<terms>/`. -/
def pmuEvent (pmu terms : Text) : Text := pmu ++ '/' :: terms ++ ['/']

namespace Sysfs

def defaultRoot : Text := "/sys/devices".toList

/-! ## 1. Files of a PMU -/

/-- The path of a file of a PMU directory.  A directory that is given from the top does not lie
below the root, so the events of a PMU whose name starts with a slash are looked for elsewhere. -/
def pathOf (directory file : Text) (s : Sysfs) : Text :=
  FileTree.joinPath (FileTree.joinPath s.root directory) file

def read? (s : Sysfs) (directory file : Text) : Option Text :=
  s.files.readTrimmed? (s.pathOf directory file)

def typeFile : Text := "type".toList

def cpumaskFile : Text := "cpumask".toList

def formatDirectory : Text := "format".toList

def eventsDirectory : Text := "events".toList

def readType? (t : Text) : Option (BitVec 32) :=
  (Numeral.readUnsigned 10 Numeral.limit32 t).toOption.map (BitVec.ofNat 32)

def typeOf? (s : Sysfs) (directory : Text) : Option (BitVec 32) :=
  (s.read? directory typeFile).bind readType?

def format? (s : Sysfs) (directory key : Text) : Option Text :=
  s.read? directory (formatDirectory ++ '/' :: key)

def alias? (s : Sysfs) (directory name : Text) : Option Text :=
  s.read? directory (eventsDirectory ++ '/' :: name)

/-- The list of processors in a file.  A file that holds no list counts as missing, so that a text
which is malformed is not an error here; only for a list without room there is no going on. -/
def listAt (s : Sysfs) (path : Text) : Except Error (Option (List Nat)) :=
  match s.files.readTrimmed? path with
  | none => .ok none
  | some t =>
    match CpuList.read t with
    | .ok cpus => .ok (some cpus)
    | .error (.malformed _) => .ok none
    | .error .noRoom => .error .noRoom

/-- The processors that count for a PMU.  A PMU of the cores has no such list. -/
def cpumask? (s : Sysfs) (directory : Text) : Except Error (Option (List Nat)) :=
  s.listAt (s.pathOf directory cpumaskFile)

/-! ## 2. Finding PMUs -/

def uncoreMark : Text := "uncore_".toList

/-- The directories in which a PMU may lie, in the order in which they are tried.  Catalogs call a
PMU outside the cores by its name alone, while the kernel puts `uncore_` in front of it and a number
behind it if there are several. -/
def directoriesOf (pmu : Text) : List Text :=
  [pmu, uncoreMark ++ pmu, uncoreMark ++ pmu ++ ['_', '0'], uncoreMark ++ pmu ++ ['_', '1']]

/-- The type id and the directory of a PMU: the first directory that has a type id. -/
def pmuType? (s : Sysfs) (pmu : Text) : Option (BitVec 32 × Text) :=
  (directoriesOf pmu).findSome? fun directory =>
    (s.typeOf? directory).map fun id => (id, directory)

/-- A directory with a type id is itself the PMU of its name. -/
theorem pmuType?_of_typeOf? {s : Sysfs} {directory : Text} {id : BitVec 32}
    (h : s.typeOf? directory = some id) : s.pmuType? directory = some (id, directory) := by
  simp [pmuType?, directoriesOf, h]

/-- The directory of a PMU.  A PMU without a type id keeps its name, and a directory of that name
may still hold other files. -/
def directoryOf (s : Sysfs) (pmu : Text) : Text := ((s.pmuType? pmu).map Prod.snd).getD pmu

/-- The event is counted once for all processors: it is not spelled out as an event of a PMU, and
the processors of its PMU are processor 0 alone.  The PMU is the given one, or else the event
itself. -/
def isUncore (s : Sysfs) (event : Text) (pmu? : Option Text) : Except Error Bool :=
  let pmu := pmu?.getD (Text.trim event)
  if '/' ∈ event ∨ pmu = [] then .ok false
  else (s.cpumask? (s.directoryOf pmu)).map (· == some [0])

/-- The pattern for the files with the type ids.  The root is a part of it as it stands: its stars
and brackets are those of a pattern. -/
def typePattern (s : Sysfs) : Text := s.root ++ "/*/".toList ++ typeFile

/-- The name of the directory of the first file with the type id.  A directory that cannot be read
is an error only if no file before it has that type id. -/
def pmuNameAmong (s : Sysfs) (id : BitVec 32) : List (Option Text) → Except Error (Option Text)
  | [] => .ok none
  | none :: _ => .error .pathSearch
  | some path :: found =>
    if (s.files.readTrimmed? path).bind readType? = some id then .ok (PathStep.nameAbove? 1 path)
    else pmuNameAmong s id found

/-- The first PMU, in the order of the search, with the type id. -/
def pmuName? (glob : Glob) (s : Sysfs) (id : BitVec 32) : Except Error (Option Text) :=
  match glob s.files s.typePattern with
  | none => .error .pathPattern
  | some found => s.pmuNameAmong id found

/-! ## 3. Lists -/

def aliasPattern (s : Sysfs) : Text := s.root ++ "/*/".toList ++ eventsDirectory ++ "/*".toList

/-- The event of the alias in a file.  Names with a dot belong to the unit and the scale of an
event. -/
def kernelEvent? (s : Sysfs) (path : Text) : Option KernelEvent :=
  match PathStep.nameAbove? 0 path, PathStep.nameAbove? 2 path with
  | some name, some pmu =>
    if '.' ∈ name then none
    else
      (s.files.readTrimmed? path).map fun terms => ⟨pmuEvent pmu name, pmuEvent pmu terms, pmu⟩
  | _, _ => none

/-- The events of all aliases of all PMUs.  Here every directory is looked at, so that one which
cannot be read is always an error. -/
def kernelEvents (glob : Glob) (s : Sysfs) : Except Error (List KernelEvent) :=
  match glob s.files s.aliasPattern with
  | none => .error .pathPattern
  | some found =>
    if none ∈ found then .error .pathSearch
    else .ok (found.filterMap fun path? => path?.bind s.kernelEvent?)

/-! ## 4. Processors -/

def onlinePath (s : Sysfs) : Text := FileTree.joinPath s.root "system/cpu/online".toList

/-- The number of processors on which counters are opened: one more than the last one that is
online.  Without a list of them it is `fallback`.  The last one may be the largest word, behind which
there is no other. -/
def cpuCount (s : Sysfs) (fallback : Nat) : Except Error Nat :=
  match s.listAt s.onlinePath with
  | .error e => .error e
  | .ok cpus? =>
    match cpus?.bind List.getLast? with
    | none => .ok fallback
    | some last => if last + 1 < Numeral.limit64 then .ok (last + 1) else .error .noCount

end Sysfs

end HardwareCounters
