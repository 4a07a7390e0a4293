import Dataflow.Keyed
import Dataflow.Number

/-!
# JSON values and their text

* `Json`: a JSON value. The entries of an object keep their order, and a key may stand twice.
* `sorted`: the value with its entries in the order of their keys, each key once.
* `pretty`: the text of a value, one element or entry a line and two spaces for each level. An empty
  array or object stays on its line.
* `quoted`: a text in quotes. Only the quote, the backslash and control characters below the space
  are escaped.
-/

namespace Dataflow

/-- A JSON value. -/
inductive Json where
  | null
  | boolean (value : Bool)
  | number (value : Number)
  | string (value : String)
  | array (items : List Json)
  | object (entries : List (String × Json))
  deriving Repr

namespace Json

/-- A natural number as a JSON value. -/
def ofNat (n : Nat) : Json :=
  .number (.integer n)

/-- A list as a JSON array. -/
def ofList {α : Type} (write : α → Json) (xs : List α) : Json :=
  .array (xs.map write)

/-! ## Size -/

mutual

/-- The number of levels of a value. -/
def height : Json → Nat
  | .array items => itemsHeight items + 1
  | .object entries => entriesHeight entries + 1
  | _ => 1

/-- The greatest number of levels among values. -/
def itemsHeight : List Json → Nat
  | [] => 0
  | item :: items => max item.height (itemsHeight items)

/-- The greatest number of levels among the values of entries. -/
def entriesHeight : List (String × Json) → Nat
  | [] => 0
  | (_, value) :: entries => max value.height (entriesHeight entries)

end

/-! ## Order -/

mutual

/-- The value with the entries of each object in the order of their keys. Of entries with one key
the last counts. -/
def sorted : Json → Json
  | .array items => .array (sortedItems items)
  | .object entries => .object (sortedEntries [] entries)
  | json => json

/-- Array elements with their entries in order. -/
def sortedItems : List Json → List Json
  | [] => []
  | item :: items => item.sorted :: sortedItems items

/-- A table with more entries, which are in order themselves. -/
def sortedEntries (table : Keyed Json) : List (String × Json) → Keyed Json
  | [] => table
  | (key, value) :: entries =>
    let ordered := value.sorted
    sortedEntries (table.update key fun _ => ordered) entries

end

/-! ## Text -/

/-- A lower-case hexadecimal digit. -/
def hexDigit (n : Nat) : Char :=
  Nat.digitChar n

/-- A character inside quotes. -/
def escaped (c : Char) : List Char :=
  if c = '"' then ['\\', '"']
  else if c = '\\' then ['\\', '\\']
  else if c = '\x08' then ['\\', 'b']
  else if c = '\t' then ['\\', 't']
  else if c = '\n' then ['\\', 'n']
  else if c = '\x0c' then ['\\', 'f']
  else if c = '\r' then ['\\', 'r']
  else if c.toNat < 32 then
    ['\\', 'u', '0', '0', hexDigit (c.toNat / 16), hexDigit (c.toNat % 16)]
  else [c]

/-- A text in quotes. -/
def quoted (text : String) : String :=
  String.ofList ('"' :: text.toList.flatMap escaped ++ ['"'])

/-- The start of a line at a level. -/
def margin (level : Nat) : String :=
  String.ofList ('\n' :: List.replicate (2 * level) ' ')

mutual

/-- The text of a value that starts on a line of the given level. -/
def prettyAt (level : Nat) : Json → String
  | .null => "null"
  | .boolean value => if value then "true" else "false"
  | .number value => value.render
  | .string value => quoted value
  | .array [] => "[]"
  | .array (item :: items) =>
    "[" ++ margin (level + 1) ++ prettyAt (level + 1) item ++ prettyItems (level + 1) items ++
      margin level ++ "]"
  | .object [] => "\x7b\x7d"
  | .object ((key, value) :: entries) =>
    "\x7b" ++ margin (level + 1) ++ quoted key ++ ": " ++ prettyAt (level + 1) value ++
      prettyEntries (level + 1) entries ++ margin level ++ "\x7d"

/-- The text of the array elements after the first. -/
def prettyItems (level : Nat) : List Json → String
  | [] => ""
  | item :: items => "," ++ margin level ++ prettyAt level item ++ prettyItems level items

/-- The text of the object entries after the first. -/
def prettyEntries (level : Nat) : List (String × Json) → String
  | [] => ""
  | (key, value) :: entries =>
    "," ++ margin level ++ quoted key ++ ": " ++ prettyAt level value ++ prettyEntries level entries

end

/-- The text of a value. -/
def pretty (json : Json) : String :=
  json.prettyAt 0

end Json

end Dataflow
