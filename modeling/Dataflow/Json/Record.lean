import Dataflow.Json
import Dataflow.Named

/-!
# Records in JSON

Readers for the parts of a record: names, words, lists and fields.

* `Fields`: the fields of a record by name. Entries with other names are ignored; a field that
  stands twice is refused.
* `record?`: a record is an object, or an array of its fields in order, from which fields at the end
  may be missing.
* `required`, `defaulting`, `optional`: a field that must stand, one with a default, and one that
  may be missing or null.
-/

namespace Dataflow.Json

/-! ## Values -/

/-- The value of a boolean. -/
def boolean? : Json → Option Bool
  | .boolean value => some value
  | _ => none

/-- The value of a string. -/
def string? : Json → Option String
  | .string value => some value
  | _ => none

/-- A non-negative integer below a bound. -/
def natBelow? (bound : Nat) : Json → Option Nat
  | .number (.integer value) => if 0 ≤ value ∧ value < bound then some value.toNat else none
  | _ => none

/-- A 32-bit word. -/
def word32? (json : Json) : Option UInt32 :=
  (json.natBelow? UInt32.size).map UInt32.ofNat

/-- The elements of an array, each read the same way. -/
def list? {α : Type} (read : Json → Option α) : Json → Option (List α)
  | .array items => items.mapM read
  | _ => none

/-- A named value: its name, or an object with the name as its only key and null behind it. -/
def named? {α : Type} [Named α] : Json → Option α
  | .string text => Named.ofName? text
  | .object [(text, .null)] => Named.ofName? text
  | _ => none

/-- A named value as JSON. -/
def ofNamed {α : Type} [Named α] (value : α) : Json :=
  .string (Named.name value)

/-! ## Fields -/

/-- The fields of a record. -/
abbrev Fields := List (String × Json)

/-- The entries with one of the given names, if none stands twice. -/
def select? (names : List String) (entries : List (String × Json)) : Option Fields :=
  let known := entries.filter fun entry => names.contains entry.1
  if (known.map Prod.fst).Nodup then some known else none

/-- The fields of a record that is an object. -/
def objectFields? (names : List String) : Json → Option Fields
  | .object entries => select? names entries
  | _ => none

/-- The fields of a record. -/
def record? (names : List String) : Json → Option Fields
  | .object entries => select? names entries
  | .array items => if items.length ≤ names.length then some (names.zip items) else none
  | _ => none

/-- A field that must stand. -/
def Fields.required {α : Type} (fields : Fields) (name : String) (read : Json → Option α) :
    Option α :=
  (fields.lookup name).bind read

/-- A field that may be missing. -/
def Fields.defaulting {α : Type} (fields : Fields) (name : String) (read : Json → Option α)
    (default : α) : Option α :=
  match fields.lookup name with
  | none => some default
  | some json => read json

/-- A field that may be missing or null. -/
def Fields.optional {α : Type} (fields : Fields) (name : String) (read : Json → Option α) :
    Option (Option α) :=
  match fields.lookup name with
  | none => some none
  | some .null => some none
  | some json => (read json).map some

/-- The entry of a field that is left out when absent. -/
def optionalEntry {α : Type} (name : String) (write : α → Json) (value : Option α) :
    List (String × Json) :=
  (value.map fun present => (name, write present)).toList

end Dataflow.Json
