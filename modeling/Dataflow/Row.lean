import Dataflow.Ecosystem
import Dataflow.Number

/-!
# Rows

A row is a list of scalars; the analysis reads and writes models as rows of a fixed shape.

* `Scalar`: a boolean, a number or a text.
* `textAt row i`: the text of a column, empty when there is none.
* `checkShape`: a row against a column table, the arity before the kinds of the columns.
* `RowError`: why a row cannot be read or a model not be written.
-/

namespace Dataflow

/-! ## Scalars -/

/-- A value in a row. -/
inductive Scalar where
  | boolean (value : Bool)
  | number (value : Number)
  | text (value : String)
  deriving DecidableEq, Repr

namespace Scalar

/-- The value of a text scalar. -/
def text? : Scalar → Option String
  | .text value => some value
  | _ => none

/-- The value of a boolean scalar. -/
def boolean? : Scalar → Option Bool
  | .boolean value => some value
  | _ => none

/-- The text of a scalar, without quotes. -/
def render : Scalar → String
  | .boolean value => if value then "true" else "false"
  | .number value => value.render
  | .text value => value

end Scalar

/-- The values of the columns of one model. -/
abbrev Row := List Scalar

/-- The text of column `i`. A column that is missing or no text reads as empty. -/
def Row.textAt (row : Row) (i : Nat) : String :=
  (row[i]?.bind Scalar.text?).getD ""

/-! ## Errors -/

/-- What a column may hold. -/
inductive ColumnKind where
  | text
  | boolean
  deriving DecidableEq, Repr

/-- The name of a column kind. -/
def ColumnKind.name : ColumnKind → String
  | text => "string"
  | boolean => "boolean"

/-- Why a row cannot be read or a model not be written. -/
inductive RowError where
  | unknownEcosystem (name : String)
  | unsupportedVariant (ecosystem : Ecosystem) (variant : Variant)
  | arity (variant : Variant) (expected actual : Nat)
  | columnKind (variant : Variant) (index : Nat) (expected : ColumnKind)
  | methodPathExpected (path suffix : String)
  deriving DecidableEq, Repr

/-- The text of an error. -/
def RowError.message : RowError → String
  | unknownEcosystem name => "no adapter registered for ecosystem '" ++ name ++ "'"
  | unsupportedVariant ecosystem variant =>
    "ecosystem '" ++ ecosystem.name ++ "' does not support " ++ variant.name ++ " models"
  | arity variant expected actual =>
    variant.name ++ " row has " ++ toString actual ++ " columns, expected " ++ toString expected
  | columnKind variant index expected =>
    variant.name ++ " row column " ++ toString index ++ " should be a " ++ expected.name
  | methodPathExpected path suffix =>
    "path '" ++ path ++ "' must refer to a method only, found trailing '" ++ suffix ++ "'"

/-! ## Shapes -/

/-- A column of this kind may hold a value. -/
def ColumnKind.accepts : ColumnKind → Scalar → Bool
  | .text, .text _ => true
  | .boolean, .boolean _ => true
  | _, _ => false

/-- The first column of a row that does not hold what its kind asks for, counted from `index`. -/
def firstMismatch? : Nat → List ColumnKind → Row → Option (Nat × ColumnKind)
  | index, kind :: kinds, value :: row =>
    if kind.accepts value then firstMismatch? (index + 1) kinds row else some (index, kind)
  | _, _, _ => none

/-- Accept a row that has the given columns. -/
def checkShape (variant : Variant) (columns : List ColumnKind) (row : Row) : Except RowError Unit :=
  if row.length ≠ columns.length then .error (.arity variant columns.length row.length)
  else
    match firstMismatch? 0 columns row with
    | some (index, kind) => .error (.columnKind variant index kind)
    | none => .ok ()

end Dataflow
