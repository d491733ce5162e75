/-
# Searching for paths

A pattern for paths is a path in which some signs stand for several texts: a part that is a star stands
for every name in a directory.  A search may refuse a pattern, and it may come to a directory that
cannot be read.

What PMUs there are is found out by such a search, and any search may be used for it.  The root of the
PMU directories goes into the pattern as it is, so a root with signs in it stands for several
directories, or for a malformed pattern.

* `FileTree.search` is a search for patterns of names and stars.
-/
import HardwareCounters.FileTree

namespace HardwareCounters

/-- A search of a tree for the paths that match a pattern.  A malformed pattern is refused.  Among what
is found, `none` stands for a directory that could not be read. -/
abbrev Glob := FileTree → Text → Option (List (Option Text))

/-- The character means something else than itself in a pattern. -/
def Glob.isSign (c : Char) : Bool := c == '*' || c == '?' || c == '[' || c == ']'

def Glob.star : Text := ['*']

/-- The name that a path has so many levels above its end. -/
def PathStep.nameAbove? (levels : Nat) (path : Text) : Option Text :=
  match (PathStep.ofPath path).reverse[levels]? with
  | some (.down name) => some name.text
  | _ => none

namespace FileTree

/-- A path that goes on with a part.  Without a front it starts there. -/
def continued : Option Text → Text → Text
  | none, part => part
  | some front, part => front ++ '/' :: part

/-- The paths that match the parts of a pattern behind a front.  An empty part only comes first, in a
pattern that starts at the top. -/
def expand (tree : FileTree) (front? : Option Text) : List Text → List Text
  | [] => front?.toList
  | part :: parts =>
    if part = Glob.star then
      (tree.children (tree.placeOf (continued front? []))).flatMap fun name =>
        expand tree (some (continued front? name.text)) parts
    else if part = [] ∨ (tree.entryAt (continued front? part)).toOption.isSome then
      expand tree (some (continued front? part)) parts
    else []

/-- Searches for a pattern of names and stars.  Any other pattern is refused. -/
def search : Glob := fun tree pattern =>
  let parts := Text.splitOn '/' pattern
  if parts.all fun part => part == Glob.star || part.all fun c => !Glob.isSign c then
    some ((tree.expand none parts).map some)
  else none

end FileTree

end HardwareCounters
