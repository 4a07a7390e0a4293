/-!
# TOML documents

A TOML document is a list of statements: pairs of a key and a value, and headers that open the table
the pairs after them belong to. `Toml.ofStatements?` puts them together.

* A table is opened at most once by a header, and a key gets at most one value.
* A dotted key opens tables on its way that only dotted keys of the same table may add to. It does
  not lead into a table that a header has opened.
* A header of an element adds a table to an array of tables; what leads through the array goes on in
  its last element.
* A table in braces is closed, and so is an array in brackets.
-/

namespace Dataflow

/-- How a table came about, which decides what may be added to it. -/
inductive TableOrigin where
  /-- A header opened it. -/
  | header
  /-- A header has opened a table below it. -/
  | implied
  /-- A dotted key leads through it. -/
  | dotted
  /-- It stands in braces. -/
  | braces
  deriving DecidableEq, Repr

/-- A TOML value. Floats and moments keep their text. -/
inductive Toml where
  | text (value : String)
  | integer (value : Int)
  | float (text : String)
  | boolean (value : Bool)
  | moment (text : String)
  | array (items : List Toml)
  | tables (items : List (List (String × Toml)))
  | table (origin : TableOrigin) (entries : List (String × Toml))

namespace Toml

/-- The entries of a table. -/
abbrev Entries := List (String × Toml)

/-- A key: the tables it leads through and the name it ends with. -/
structure Key where
  path : List String
  name : String
  deriving DecidableEq, Repr

/-- The key of some parts, of which there is at least one. -/
def Key.ofParts? (parts : List String) : Option Key :=
  parts.getLast?.map fun name => ⟨parts.dropLast, name⟩

/-- A statement of a document. -/
inductive Statement where
  /-- Give a key a value. -/
  | pair (key : Key) (value : Toml)
  /-- Open a table. -/
  | table (key : Key)
  /-- Add an element to an array of tables and open it. -/
  | element (key : Key)

/-! ## Editing tables -/

/-- Change the value of a name, or give it one. The change may be refused. -/
def alter (name : String) (change : Option Toml → Option Toml) : Entries → Option Entries
  | [] => (change none).map fun value => [(name, value)]
  | entry :: entries =>
    if entry.1 = name then (change (some entry.2)).map fun value => (name, value) :: entries
    else (alter name change entries).map (entry :: ·)

/-- A change of a table, which may be refused. -/
abbrev Change := TableOrigin → Entries → Option Entries

/-- A dotted key or a header may lead into a table. -/
def isOpenTo (byKey : Bool) : TableOrigin → Bool
  | .header => !byKey
  | .implied | .dotted => true
  | .braces => false

/-- Change the table that a name stands for, which is new if the name has no value. -/
def enter (byKey : Bool) (change : Change) : Option Toml → Option Toml
  | none =>
    let origin : TableOrigin := if byKey then .dotted else .implied
    (change origin []).map (.table origin)
  | some (.table origin entries) =>
    if isOpenTo byKey origin then (change origin entries).map (.table origin) else none
  | some (.tables items) =>
    match items.getLast? with
    | some last => (change .header last).map fun entries => .tables (items.dropLast ++ [entries])
    | none => none
  | some _ => none

/-- Change the table at the end of a path. -/
def changeAt (byKey : Bool) : List String → Change → Change
  | [], change => change
  | name :: path, change =>
    fun _ entries => alter name (enter byKey (changeAt byKey path change)) entries

/-- Give a name a value, unless it has one. -/
def assign (name : String) (value : Toml) : Entries → Option Entries :=
  alter name fun present => if present.isNone then some value else none

/-- Give a key a value. The last table on its way is one that dotted keys opened. -/
def assignKey (key : Key) (value : Toml) : Change :=
  changeAt true key.path fun origin entries =>
    if (origin == .dotted) == key.path.isEmpty then none else assign key.name value entries

/-- Open a table that no header has opened yet. -/
def openTable : Option Toml → Option Toml
  | none => some (.table .header [])
  | some (.table .implied entries) => some (.table .header entries)
  | some _ => none

/-- Add an empty element to an array of tables. -/
def addElement : Option Toml → Option Toml
  | none => some (.tables [[]])
  | some (.tables items) => some (.tables (items ++ [[]]))
  | some _ => none

/-! ## Documents -/

/-- A document that is being put together: its entries and the path of the open table. -/
structure Draft where
  entries : Entries
  place : List String

namespace Draft

/-- The document after an opening change at a key, with that table open. -/
def openAt (draft : Draft) (key : Key) (change : Option Toml → Option Toml) : Option Draft :=
  (changeAt false key.path (fun _ => alter key.name change) .header draft.entries).map
    fun entries => ⟨entries, key.path ++ [key.name]⟩

/-- The document after one more statement. -/
def apply (draft : Draft) : Statement → Option Draft
  | .pair key value =>
    (changeAt false draft.place (assignKey key value) .header draft.entries).map fun entries =>
      { draft with entries }
  | .table key => draft.openAt key openTable
  | .element key => draft.openAt key addElement

end Draft

/-- The entries of the document made of some statements. -/
def ofStatements? (statements : List Statement) : Option Entries :=
  (statements.foldlM Draft.apply ⟨[], []⟩).map Draft.entries

/-- The table in braces that holds some pairs. -/
def ofPairs? (pairs : List (Key × Toml)) : Option Toml :=
  (pairs.foldlM (fun entries (key, value) => assignKey key value .braces entries) []).map
    (.table .braces)

end Toml

end Dataflow
