/-!
# Named values

A finite type whose values have names on the wire. `Named.ofName?` reads a name back; names are
case-sensitive. `Named.ofText` says of a text that is no name what it should have named.
-/

namespace Dataflow

/-- A type with finitely many values, each of one name. -/
class Named (α : Type) where
  /-- The values, in display order. -/
  all : List α
  /-- The name of a value. -/
  name : α → String

/-- The value of a name. -/
def Named.ofName? {α : Type} [Named α] (text : String) : Option α :=
  (Named.all : List α).find? fun value => Named.name value == text

/-- A text that is not the name of what it should name. -/
structure UnknownName where
  /-- What the text should name. -/
  noun : String
  text : String
  deriving DecidableEq, Repr

/-- The text of an error. -/
def UnknownName.message (error : UnknownName) : String :=
  "unknown " ++ error.noun ++ " '" ++ error.text ++ "'"

/-- The value of a name, where any other text is an error. -/
def Named.ofText {α : Type} [Named α] (noun text : String) : Except UnknownName α :=
  (Named.ofName? text).elim (.error ⟨noun, text⟩) .ok

end Dataflow
