/-
# Where catalogs lie

The catalog of a processor is two files, one for the events of the cores and one for the others.
They are looked for in a list of directories, first under the full name of the processor in every
directory, then under its name without the stepping.
-/
import HardwareCounters.CpuId

namespace HardwareCounters

/-- Directories and the processor whose catalog is looked for in them. -/
structure CatalogSource where
  directories : List Text
  cpu : CpuId
  deriving DecidableEq, Repr

namespace CatalogSource

def coreKind : Text := "core".toList

def uncoreKind : Text := "uncore".toList

def fileName (id kind : Text) : Text := id ++ '-' :: kind ++ ".json".toList

/-- The paths at which a file of some kind may lie, in the order in which they are tried. -/
def candidates (source : CatalogSource) (kind : Text) : List Text :=
  source.cpu.candidates.flatMap fun id =>
    source.directories.map fun directory => FileTree.joinPath directory (fileName id kind)

/-- The path of the file of some kind: the first candidate that is a file. -/
def locateKind (source : CatalogSource) (files : FileTree) (kind : Text) : Except Error Text :=
  match (source.candidates kind).find? files.isFile with
  | some path => .ok path
  | none => .error (.catalogNotFound (.noFile source.cpu.fullId kind))

/-- The paths of the two files. -/
def locate (source : CatalogSource) (files : FileTree) : Except Error (Text × Text) := do
  let core ← source.locateKind files coreKind
  let uncore ← source.locateKind files uncoreKind
  return (core, uncore)

/-- The source for the processor of a machine, with the directories of a search path between
colons. -/
def ofSearchPath (files : FileTree) (searchPath? : Option Text) : Except Error CatalogSource :=
  match searchPath? with
  | none => .error .environment
  | some searchPath =>
    (CpuId.ofMachine files).map fun cpu =>
      ⟨(Text.splitOn ':' searchPath).filter (· ≠ []), cpu⟩

end CatalogSource

end HardwareCounters
