/-
# File trees

A file tree maps places to files and directories.  A place is a list of names.  A path is a text in
which steps are separated by `/`: a name leads into a directory, two dots lead out of one, and parts
that are empty or a single dot lead nowhere.  A path that starts with `/` starts at the top, and any
other path at the working directory.

* `placeOf_append`: a path leads from where its first half ends by the steps of the second;
* `find?_put`: what is found after a place has been written.
-/
import HardwareCounters.Association
import HardwareCounters.Error

namespace HardwareCounters

/-! ## 1. Names and places -/

structure FileName where
  text : Text
  proper : text ≠ [] ∧ text ≠ ['.'] ∧ text ≠ ['.', '.'] ∧ '/' ∉ text
  deriving DecidableEq

/-- The name that a part of a path gives. -/
def FileName.ofText? (part : Text) : Option FileName :=
  if h : part ≠ [] ∧ part ≠ ['.'] ∧ part ≠ ['.', '.'] ∧ '/' ∉ part then some ⟨part, h⟩ else none

/-- A step on a path. -/
inductive PathStep where
  /-- Out of a directory. -/
  | up
  /-- Into a directory, or to a file. -/
  | down (name : FileName)
  deriving DecidableEq

def PathStep.ofText? (part : Text) : Option PathStep :=
  if part = ['.', '.'] then some .up else (FileName.ofText? part).map .down

def PathStep.ofPath (path : Text) : List PathStep :=
  (Text.splitOn '/' path).filterMap PathStep.ofText?

theorem PathStep.ofPath_append (s t : Text) :
    PathStep.ofPath (s ++ '/' :: t) = PathStep.ofPath s ++ PathStep.ofPath t := by
  simp [PathStep.ofPath, Text.splitOn_append]

/-- The path can only stand for a directory, because its last part names nothing. -/
def PathStep.endsInDirectory (path : Text) : Bool :=
  match (Text.splitOn '/' path).getLast? with
  | none => true
  | some part => (FileName.ofText? part).isNone

/-- The names on the way from the top of a tree. -/
abbrev Place := List FileName

/-- The place to which a step leads, if it can be made.  Above the top there is the top. -/
def Place.follow (place : Place) : PathStep → Place
  | .up => place.dropLast
  | .down name => place ++ [name]

/-- The places of the directories around a place, from the outermost. -/
def Place.ancestors (place : Place) : List Place :=
  (List.range' 1 (place.length - 1)).map place.take

/-! ## 2. Trees -/

/-- The content of a file: a text, or bytes that are no UTF-8. -/
inductive Content where
  | text (t : Text)
  | undecodable
  deriving DecidableEq

/-- The content that bytes spell. -/
def Content.ofBytes (bytes : ByteArray) : Content :=
  match String.fromUTF8? bytes with
  | some s => .text s.toList
  | none => .undecodable

inductive Entry where
  | file (content : Content)
  | directory
  deriving DecidableEq

/-- Files and directories by their places, and the place where a path starts that does not say from
where. -/
structure FileTree where
  entries : List (Place × Entry) := []
  workingDirectory : Place := []

namespace FileTree

/-- The place where a path starts. -/
def startOf (tree : FileTree) (path : Text) : Place :=
  if path.head? = some '/' then [] else tree.workingDirectory

/-- The place to which a path leads, if all its steps can be made. -/
def placeOf (tree : FileTree) (path : Text) : Place :=
  (PathStep.ofPath path).foldl Place.follow (tree.startOf path)

theorem placeOf_append (tree : FileTree) {s : Text} (t : Text) (h : s ≠ []) :
    tree.placeOf (s ++ '/' :: t) = (PathStep.ofPath t).foldl Place.follow (tree.placeOf s) := by
  have hstart : tree.startOf (s ++ '/' :: t) = tree.startOf s := by
    obtain ⟨c, rest, rfl⟩ := List.exists_cons_of_ne_nil h
    rfl
  rw [placeOf, placeOf, hstart, PathStep.ofPath_append, List.foldl_append]

/-- What stands at a place.  At the top stands a directory. -/
def find? (tree : FileTree) : Place → Option Entry
  | [] => some .directory
  | place => Association.get? tree.entries place

def put (tree : FileTree) (place : Place) (entry : Entry) : FileTree :=
  { tree with entries := Association.put tree.entries place entry }

theorem find?_put (tree : FileTree) {place other : Place} (entry : Entry) (h : other ≠ []) :
    (tree.put place entry).find? other =
      if other = place then some entry else tree.find? other := by
  obtain ⟨name, rest, rfl⟩ := List.exists_cons_of_ne_nil h
  exact Association.get?_put tree.entries place (name :: rest) entry

def addDirectory (tree : FileTree) (place : Place) : FileTree :=
  match tree.find? place with
  | none => tree.put place .directory
  | some _ => tree

/-- The tree with a directory at a place, and with those around it. -/
def addDirectories (tree : FileTree) (place : Place) : FileTree :=
  (place.ancestors ++ [place]).foldl addDirectory tree

def makeDirectory (tree : FileTree) (path : Text) : FileTree :=
  tree.addDirectories (tree.placeOf path)

/-- The tree that holds nothing but a working directory, given by its path from the top. -/
def around (workingDirectory : Text) : FileTree :=
  let place := (PathStep.ofPath workingDirectory).foldl Place.follow []
  addDirectories { workingDirectory := place } place

/-- The tree with a file at a path, and with the directories around it. -/
def write (tree : FileTree) (path : Text) (content : Content) : FileTree :=
  let place := tree.placeOf path
  (place.ancestors.foldl addDirectory tree).put place (.file content)

/-- The tree without what stands at a path or below it. -/
def remove (tree : FileTree) (path : Text) : FileTree :=
  { tree with entries := tree.entries.filter fun e => !(tree.placeOf path).isPrefixOf e.1 }

def children (tree : FileTree) (place : Place) : List FileName :=
  let names := tree.entries.filterMap fun e =>
    if e.1.dropLast = place then e.1.getLast? else none
  names.mergeSort fun a b => Text.le a.text b.text

/-! ## 3. Reading -/

def utf8Length (t : Text) : Nat := (String.ofList t).utf8ByteSize

def maxNameLength : Nat := 255

def maxPathLength : Nat := 4095

/-- Makes a step from a place of the tree.  There must be a directory at that place, and a name must
stand in it. -/
def step (tree : FileTree) (place : Place) (step : PathStep) : Except IoError Place :=
  match tree.find? place with
  | none => .error .notFound
  | some (.file _) => .error .notDirectory
  | some .directory =>
    match step with
    | .up => .ok (place.follow .up)
    | .down name =>
      if maxNameLength < utf8Length name.text then .error .nameTooLong
      else if (tree.find? (place.follow (.down name))).isNone then .error .notFound
      else .ok (place.follow (.down name))

def walk (tree : FileTree) (place : Place) : List PathStep → Except IoError Place
  | [] => .ok place
  | next :: steps =>
    match tree.step place next with
    | .error e => .error e
    | .ok place => tree.walk place steps

/-- What stands at a path, or why nothing is found there. -/
def entryAt (tree : FileTree) (path : Text) : Except IoError Entry :=
  if Char.ofNat 0 ∈ path then .error .nulInPath
  else if path = [] then .error .notFound
  else if maxPathLength < utf8Length path then .error .nameTooLong
  else
    match tree.walk (tree.startOf path) (PathStep.ofPath path) with
    | .error e => .error e
    | .ok place =>
      match tree.find? place with
      | none => .error .notFound
      | some .directory => .ok .directory
      | some (.file content) =>
        if PathStep.endsInDirectory path then .error .notDirectory else .ok (.file content)

def read (tree : FileTree) (path : Text) : Except IoError Text :=
  match tree.entryAt path with
  | .error e => .error e
  | .ok .directory => .error .isDirectory
  | .ok (.file (.text t)) => .ok t
  | .ok (.file .undecodable) => .error .notUtf8

def isFile (tree : FileTree) (path : Text) : Bool :=
  match tree.entryAt path with
  | .ok (.file _) => true
  | _ => false

/-- The text of the file at a path without the blanks at its ends, unless nothing remains. -/
def readTrimmed? (tree : FileTree) (path : Text) : Option Text :=
  match tree.read path with
  | .error _ => none
  | .ok t => if Text.trim t = [] then none else some (Text.trim t)

/-- A path inside a directory.  A path that starts at the top replaces the directory, so what is
joined need not lie below it. -/
def joinPath (directory name : Text) : Text :=
  if name.head? = some '/' then name
  else if directory = [] ∨ directory.getLast? = some '/' then directory ++ name
  else directory ++ '/' :: name

end FileTree

end HardwareCounters
