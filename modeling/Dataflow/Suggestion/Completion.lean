import Dataflow.Suggestion.Label
import Dataflow.Suggestion.Row
import Dataflow.Text.Search

/-!
# Completions

Suggestion rows of one method form a forest: below a path stand the paths that have one token more.

* `Completion`: a node, with its label, its path and the nodes below it.
* `forest rows`: the nodes that can be reached from the top, siblings in display order. Of siblings
  with one path only the first has nodes below it.
* `forests rows`: a forest for each signature.
* `matching options typed`: the nodes that complete a typed path. All its tokens but the last must
  be labels on the way down; the last one must stand in the label, upper and lower case being the
  same.
-/

namespace Dataflow

/-- A suggested path and the paths that continue it. -/
inductive Completion where
  | node (label value icon : String) (details : Option String) (followup : List Completion)
  deriving Repr

namespace Completion

/-- The last token of the path. -/
def label : Completion → String
  | node label .. => label

/-- The whole path. -/
def value : Completion → String
  | node _ value .. => value

/-- The icon shown beside the label. -/
def icon : Completion → String
  | node _ _ icon .. => icon

/-- The details, absent or not. -/
def details : Completion → Option String
  | node _ _ _ details _ => details

/-- The paths that continue this one. -/
def followup : Completion → List Completion
  | node _ _ _ _ followup => followup

/-- The node with other nodes below it. -/
def withFollowup (followup : List Completion) : Completion → Completion
  | node label value icon details _ => node label value icon details followup

/-! ## Building -/

/-- The path without its last token. -/
def parentOf (value : String) : String :=
  AccessPath.join (AccessPath.texts value).dropLast

/-- The node of a row, with nothing below it. -/
def ofRow (row : SuggestionRow) : Completion :=
  node ((AccessPath.texts row.value).getLast?.getD "") row.value row.kind.icon
    (if row.details = "" then none else some row.details) []

/-- The nodes of rows with the paths they belong under. A row with the empty path has no place. -/
def placed (rows : List SuggestionRow) : List (String × Completion) :=
  (rows.filter fun row => row.value != "").map fun row => (parentOf row.value, ofRow row)

/-- The nodes under a path, in display order. -/
def under (nodes : List (String × Completion)) (parent : String) : List Completion :=
  ((nodes.filter fun entry => entry.1 == parent).map Prod.snd).mergeSort
    fun a b => Label.mayPrecede a.label b.label

/-- Give each node what grows below its path, unless a node before it has the same path. -/
def attach (grow : String → List Completion) : List String → List Completion → List Completion
  | _, [] => []
  | seen, option :: options =>
    option.withFollowup (if seen.contains option.value then [] else grow option.value)
      :: attach grow (option.value :: seen) options

/-- What grows below a path, to a number of levels. -/
def grow (nodes : List (String × Completion)) : Nat → String → List Completion
  | 0, _ => []
  | levels + 1, parent => attach (grow nodes levels) [] (under nodes parent)

/-- The forest of the rows of one method. A path has fewer rows above it than there are. -/
def forest (rows : List SuggestionRow) : List Completion :=
  grow (placed rows) rows.length ""

/-- The forest of each signature. -/
def forests (rows : List SuggestionRow) : Keyed (List Completion) :=
  (Keyed.group SuggestionRow.signature rows).map fun (signature, rows) => (signature, forest rows)

/-! ## Matching -/

/-- The nodes below the nodes with the given labels, each the first of its label. -/
def descend : List Completion → List String → Option (List Completion)
  | options, [] => some options
  | options, label :: labels =>
    match options.find? fun option => option.label == label with
    | some option => descend option.followup labels
    | none => none

/-- A label contains a fragment when both are in lower case. -/
def fits (fragment : String) (option : Completion) : Bool :=
  Text.contains (Text.lowercase fragment) (Text.lowercase option.label)

/-- The nodes that complete a typed path. -/
def matching (options : List Completion) (typed : String) : List Completion :=
  let tokens := AccessPath.texts typed
  match tokens.getLast?, descend options tokens.dropLast with
  | none, _ => options
  | some _, none => []
  | some fragment, some reached => reached.filter (fits fragment)

end Completion

end Dataflow
