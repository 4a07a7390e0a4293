import Dataflow.Codec

/-!
# Suggestion rows

The analysis suggests access paths for the positions of a method, each with some details and the
kind of thing it points at.

* `DefinitionKind`: the kinds, with a wire name and an icon each.
* `SuggestionRow.ofTuples`: the rows of raw tuples `type, path, value, details, kind`. The type and
  the path name the method; tuples that do not fit are left out.
-/

namespace Dataflow

/-- What a suggested path points at. -/
inductive DefinitionKind where
  | array
  | classType
  | enumeration
  | enumMember
  | field
  | interface
  | key
  | method
  | misc
  | namespaceScope
  | parameter
  | property
  | structureType
  | returned
  | variableName
  deriving DecidableEq, Repr

namespace DefinitionKind

/-- The wire name of a kind. -/
def name : DefinitionKind → String
  | array => "array"
  | classType => "class"
  | enumeration => "enum"
  | enumMember => "enum-member"
  | field => "field"
  | interface => "interface"
  | key => "key"
  | method => "method"
  | misc => "misc"
  | namespaceScope => "namespace"
  | parameter => "parameter"
  | property => "property"
  | structureType => "structure"
  | returned => "return"
  | variableName => "variable"

instance : Named DefinitionKind where
  all := [.array, .classType, .enumeration, .enumMember, .field, .interface, .key, .method, .misc,
    .namespaceScope, .parameter, .property, .structureType, .returned, .variableName]
  name := name

/-- The kind of a name. -/
def ofText (text : String) : Except UnknownName DefinitionKind :=
  Named.ofText "definition kind" text

/-- The icon of a kind. What is returned looks like a method. -/
def icon : DefinitionKind → String
  | returned => "symbol-method"
  | kind => "symbol-" ++ kind.name

end DefinitionKind

/-- A suggested path for a method. -/
structure SuggestionRow where
  signature : String
  value : String
  details : String
  kind : DefinitionKind
  deriving DecidableEq, Repr

namespace SuggestionRow

/-- The columns of a raw tuple. -/
def columns : List ColumnKind :=
  [.text, .text, .text, .text, .text]

/-- The row of a raw tuple. -/
def ofTuple? (ecosystem : Ecosystem) (tuple : Row) : Option SuggestionRow := do
  guard (checkShape .none columns tuple).toBool
  let identity ← ecosystem.identityOfPath? (tuple.textAt 0) (tuple.textAt 1)
  let kind ← Named.ofName? (tuple.textAt 4)
  return ⟨ecosystem.signature identity, tuple.textAt 2, tuple.textAt 3, kind⟩

/-- The rows of raw tuples. -/
def ofTuples (ecosystem : Ecosystem) (tuples : List Row) : List SuggestionRow :=
  tuples.filterMap (ofTuple? ecosystem)

end SuggestionRow

end Dataflow
