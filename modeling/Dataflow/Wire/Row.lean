import Dataflow.Json.Record
import Dataflow.Row

/-!
# Rows in JSON

A row is an array of booleans, numbers and strings.
-/

namespace Dataflow

namespace Scalar

/-- A scalar as JSON. -/
def toJson : Scalar → Json
  | .boolean value => .boolean value
  | .number value => .number value
  | .text value => .string value

/-- The scalar a JSON value holds. -/
def ofJson? : Json → Option Scalar
  | .boolean value => some (.boolean value)
  | .number value => some (.number value)
  | .string value => some (.text value)
  | _ => none

end Scalar

namespace Row

/-- A row as JSON. -/
def toJson (row : Row) : Json :=
  .ofList Scalar.toJson row

/-- The row a JSON value holds. -/
def ofJson? (json : Json) : Option Row :=
  json.list? Scalar.ofJson?

end Row

end Dataflow
