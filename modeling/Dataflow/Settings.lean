import Dataflow.Display
import Dataflow.Ecosystem
import Dataflow.Toml

/-!
# Settings

The settings of a project stand in the table `flowmodel` of a TOML document. All may be missing.

* `ofEntries?`: the settings of a document. Keys that are not known are ignored.
* In place of the table, an array of the values in their order is read as well.
-/

namespace Dataflow

/-- The settings of a project. -/
structure Settings where
  /-- The ecosystem to use when none is named. -/
  language : Option Ecosystem
  /-- How methods are shown when it is not said. -/
  mode : Mode
  /-- Type models are written although nobody asks for them. -/
  showTypeModels : Bool
  deriving DecidableEq, Repr

namespace Toml

/-- A table or an array with nothing in it. -/
def isEmpty : Toml → Bool
  | array [] | tables [] | table _ [] => true
  | _ => false

/-- A named value: its name, or a table with the name as its only key and nothing behind it. -/
def named? {α : Type} [Named α] : Toml → Option α
  | text name => Named.ofName? name
  | table _ [(name, value)] => if value.isEmpty then Named.ofName? name else none
  | _ => none

/-- The value of a boolean. -/
def boolean? : Toml → Option Bool
  | boolean value => some value
  | _ => none

/-- The values of a record whose fields have the given names. A moment has none of them. -/
def fields? (names : List String) : Toml → Option Entries
  | table _ entries => some entries
  | array items => some (names.zip items)
  | tables items => some (names.zip (items.map (table .header)))
  | moment _ => some []
  | _ => none

/-- A field that may be missing. -/
def Entries.defaulting {α : Type} (entries : Entries) (name : String) (read : Toml → Option α)
    (default : α) : Option α :=
  match entries.lookup name with
  | none => some default
  | some value => read value

end Toml

namespace Settings

/-- The settings of a project that says nothing. -/
def standard : Settings :=
  ⟨none, .application, false⟩

/-- The name of the table that holds the settings. -/
def tableName : String := "flowmodel"

/-- The names of the settings. -/
def fieldNames : List String :=
  ["language", "mode", "show_type_models"]

/-- The settings of their table. -/
def ofTable? (table : Toml) : Option Settings := do
  let entries ← table.fields? fieldNames
  let language ← entries.defaulting "language" (fun value => value.named?.map some) none
  let mode ← entries.defaulting "mode" Toml.named? .application
  let showTypeModels ← entries.defaulting "show_type_models" Toml.boolean? false
  return ⟨language, mode, showTypeModels⟩

/-- The settings of a document. -/
def ofEntries? (entries : Toml.Entries) : Option Settings :=
  entries.defaulting tableName ofTable? standard

end Settings

end Dataflow
