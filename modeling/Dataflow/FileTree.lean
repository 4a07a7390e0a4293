import Dataflow.Host
import Dataflow.Path

/-!
# File trees

A tree of directories and files in memory, which commands can run on.

* `find`: the node at a path, or why there is none. Every part of the path but the last must lead to
  a directory; two dots lead to the directory above, and stay at the root.
* `host`: the tree as the host of a command. Its state is what is left of the standard input.
-/

namespace Dataflow

/-- A file or a directory. The text of a file is absent when its bytes are no text. -/
inductive FileTree where
  | file (text : Option String)
  | directory (entries : List (String × FileTree))

namespace FileTree

/-- The longest name of a file, in bytes. -/
def maxNameSize : Nat := 255

/-- The node that some parts of a path lead to from the first of some nodes, each of which lies in
the next one. -/
def walk : List FileTree → List String → Except ReadError FileTree
  | [], _ => .error .notFound
  | node :: _, [] => .ok node
  | .file _ :: _, _ :: _ => .error .notDirectory
  | .directory entries :: above, part :: parts =>
    let here := FileTree.directory entries :: above
    if part = "" ∨ part = "." then walk here parts
    else if part = ".." then walk (if above.isEmpty then here else above) parts
    else if maxNameSize < part.utf8ByteSize then .error .nameTooLong
    else
      match entries.lookup part with
      | none => .error .notFound
      | some child => walk (child :: here) parts

/-- The node at a path of a tree, seen from a directory. -/
def find (root : FileTree) (workingDirectory path : String) : Except ReadError FileTree :=
  let full := if Path.isAbsolute path then path else Path.join workingDirectory path
  if path = "" then .error .notFound else walk [root] (Text.splitOn '/' full)

/-- The text of a node. -/
def text : FileTree → Except ReadError String
  | file (some text) => .ok text
  | file none => .error .notText
  | directory _ => .error .isDirectory

/-- The node is a directory. -/
def isDirectory : FileTree → Bool
  | directory _ => true
  | file _ => false

/-- The entries of a directory. -/
def entries : FileTree → List (String × FileTree)
  | directory entries => entries
  | file _ => []

/-- Replace or add the node of a name. -/
def put (name : String) (node : FileTree) : List (String × FileTree) → List (String × FileTree)
  | [] => [(name, node)]
  | entry :: entries =>
    if entry.1 = name then (name, node) :: entries else entry :: put name node entries

/-- A tree with a node at the parts of a path. -/
def place (node : FileTree) : List String → FileTree → FileTree
  | [], tree => if node.isDirectory && tree.isDirectory then tree else node
  | part :: parts, tree =>
    let below := (tree.entries.lookup part).getD (directory [])
    directory (put part (place node parts below) tree.entries)

/-- Add a node at a path, with the directories above it. A directory that is there stays. -/
def insert (root : FileTree) (path : String) (node : FileTree) : FileTree :=
  place node (Path.parts path) root

/-- The tree as the host of a command. -/
def host (root : FileTree) (workingDirectory : String) :
    Host (StateM (Except ReadError String)) where
  workingDirectory := return workingDirectory
  isDirectory path := return ((root.find workingDirectory path).map isDirectory).toOption.getD false
  hasPath path := return (root.find workingDirectory path).toBool
  readFile path := return (root.find workingDirectory path).bind text
  readInput := modifyGet fun input => (input, .ok "")

end FileTree

end Dataflow
