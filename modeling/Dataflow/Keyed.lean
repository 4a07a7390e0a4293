/-!
# Tables with text keys

`Keyed α` is a list of entries in increasing order of their keys, which are distinct texts ordered
by code points.

* `group key xs`: the elements of a list by key, each group in the order of the list.
* `get?`, `keys`: look-up.
-/

namespace Dataflow

/-- Entries in increasing order of their keys. -/
abbrev Keyed (α : Type) := List (String × α)

namespace Keyed

/-- The keys of a table. -/
def keys {α : Type} (table : Keyed α) : List String :=
  table.map Prod.fst

/-- The value of a key. -/
def get? {α : Type} (table : Keyed α) (key : String) : Option α :=
  (table.find? fun entry => entry.1 == key).map Prod.snd

/-- Put a text at its place in an increasing list, once. -/
def insertKey (key : String) : List String → List String
  | [] => [key]
  | other :: rest =>
    if key < other then key :: other :: rest
    else if key = other then other :: rest
    else other :: insertKey key rest

/-- The texts of a list in increasing order, each once. -/
def sortedKeys (texts : List String) : List String :=
  texts.foldr insertKey []

/-- The elements of a list by key. -/
def group {α : Type} (key : α → String) (xs : List α) : Keyed (List α) :=
  (sortedKeys (xs.map key)).map fun k => (k, xs.filter fun x => key x == k)

/-- Replace or add the value of a key, computed from the present one. -/
def update {α : Type} (key : String) (f : Option α → α) : Keyed α → Keyed α
  | [] => [(key, f none)]
  | entry :: rest =>
    if key < entry.1 then (key, f none) :: entry :: rest
    else if key = entry.1 then (key, f (some entry.2)) :: rest
    else entry :: update key f rest

/-- Remove a key. -/
def erase {α : Type} (key : String) (table : Keyed α) : Keyed α :=
  table.filter fun entry => entry.1 != key

end Keyed

end Dataflow
