import Dataflow.Text.Ends

/-!
# Paths of files

A path is a text whose parts are separated by slashes. Empty parts and single dots say nothing.

* `parts`: the parts that say something.
* `ancestors`: a path and the paths of the directories above it, by its text alone.
* `join`: the path of a name in a directory.
-/

namespace Dataflow.Path

/-- The parts of a path. -/
def parts (path : String) : List String :=
  (Text.splitOn '/' path).filter fun part => part != "" && part != "."

/-- A path that starts at the root. -/
def isAbsolute (path : String) : Bool :=
  Text.startsWith "/" path

/-- The path of some parts. -/
def ofParts (fromRoot : Bool) (parts : List String) : String :=
  (if fromRoot then "/" else "") ++ "/".intercalate parts

/-- A path and those above it, given its parts from the last to the first. -/
def upward (fromRoot : Bool) : List String → List String
  | [] => [ofParts fromRoot []]
  | part :: above => ofParts fromRoot (part :: above).reverse :: upward fromRoot above

/-- A path and the paths above it, the nearest first. The last one is the root or the empty path. -/
def ancestors (path : String) : List String :=
  upward (isAbsolute path) (parts path).reverse

/-- The path of a name in a directory. -/
def join (directory name : String) : String :=
  if directory = "" then name
  else if Text.endsWith '/' directory then directory ++ name
  else directory ++ "/" ++ name

end Dataflow.Path
