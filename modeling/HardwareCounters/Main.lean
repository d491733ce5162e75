/-
# The command line

Lists the events of the machine on which it runs.  An argument is a pattern for the names of the
catalog; the catalog is looked for in the directories of `PMU_EVENTS`.

Here files are read and lines are printed, and nothing else: what is printed is said by
`Listing.run`.
-/
import HardwareCounters.Program.Listing

namespace HardwareCounters

namespace Machine

/-- The tree with the file of the machine at a path, if there is one that can be read. -/
def addFile (files : FileTree) (path : Text) : IO FileTree := do
  try
    return files.write path (.ofBytes (← IO.FS.readBinFile (String.ofList path)))
  catch _ =>
    return files

def addFiles (files : FileTree) (paths : List Text) : IO FileTree := paths.foldlM addFile files

def pathsIn (directory : Text) : IO (List Text) := do
  try
    let entries ← ((← IO.currentDir) / String.ofList directory).readDir
    return entries.toList.map fun entry => FileTree.joinPath directory entry.fileName.toList
  catch _ =>
    return []

/-- The files of the machine that a listing looks at: the description of the processor, the catalog
files that may belong to it, and the aliases of every PMU. -/
def filesForListing (searchPath? : Option Text) : IO FileTree := do
  let files := FileTree.around (← IO.currentDir).toString.toList
  let files ← addFile files CpuId.cpuinfoPath
  let catalogs :=
    match CatalogSource.ofSearchPath files searchPath? with
    | .error _ => []
    | .ok source =>
      source.candidates CatalogSource.coreKind ++ source.candidates CatalogSource.uncoreKind
  let files ← addFiles files catalogs
  let pmus ← pathsIn Sysfs.defaultRoot
  let aliases ← pmus.mapM fun pmu => pathsIn (FileTree.joinPath pmu Sysfs.eventsDirectory)
  addFiles files aliases.flatten

end Machine

end HardwareCounters

open HardwareCounters in
/-- Prints the report of a listing, and its error if it has one. -/
def main (arguments : List String) : IO UInt32 := do
  let searchPath? := (← IO.getEnv "PMU_EVENTS").map String.toList
  let files ← Machine.filesForListing searchPath?
  let report := Listing.run FileTree.search ⟨Sysfs.defaultRoot, files⟩
    (arguments.map String.toList) searchPath?
  for t in report.printed do
    IO.println (String.ofList t)
  match report.result with
  | .ok _ => return 0
  | .error e =>
    IO.eprintln e.message
    return 1
