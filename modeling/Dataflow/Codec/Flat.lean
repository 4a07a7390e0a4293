import Dataflow.Argument
import Dataflow.Row

/-!
# Flat rows

Java and C# rows spread an endpoint over columns of its own: package, type, method and parameters.
Source, sink and summary rows have two more columns after the type and the parameters: whether
subtypes are included, always written as true, and an extension, always written as empty.

* `encode`, `decode`: between modeled methods and rows.
* `arguments`: the receiver `Argument[this]` and the parameters by number.
-/

namespace Dataflow.Flat

/-- The signature of an endpoint. -/
def signature (identity : Identity) : String :=
  identity.package ++ "." ++ identity.typeName ++ "#" ++ identity.method ++ identity.parameters

/-- The endpoint types a variant may be attached to. -/
def endpointTypes : Variant → List EndpointType
  | .type | .none => []
  | _ => [.method, .constructor]

/-- The columns of a variant. -/
def columns? : Variant → Option (List ColumnKind)
  | .source | .sink => some [.text, .text, .boolean, .text, .text, .text, .text, .text, .text]
  | .summary => some [.text, .text, .boolean, .text, .text, .text, .text, .text, .text, .text]
  | .neutral => some [.text, .text, .text, .text, .text, .text]
  | .type | .none => none

/-! ## Writing -/

/-- The columns that name an endpoint, with those for subtypes and extension. -/
def identityColumns (identity : Identity) : Row :=
  [.text identity.package, .text identity.typeName, .boolean true, .text identity.method,
    .text identity.parameters, .text ""]

/-- The row of a modeled method, for the variants that have columns. -/
def encode? (identity : Identity) : Model → Option Row
  | .source output kind provenance =>
    some (identityColumns identity ++ [.text output, .text kind, .text provenance.name])
  | .sink input kind provenance =>
    some (identityColumns identity ++ [.text input, .text kind, .text provenance.name])
  | .summary input output kind provenance =>
    some (identityColumns identity ++
      [.text input, .text output, .text kind, .text provenance.name])
  | .neutral kind provenance =>
    some [.text identity.package, .text identity.typeName, .text identity.method,
      .text identity.parameters, .text kind, .text provenance.name]
  | .type .. | .none => none

/-! ## Reading -/

/-- The method of the given names. -/
def identityOf (package typeName method parameters : String) : Identity :=
  let identity : Identity := ⟨package, typeName, method, parameters, .method, ""⟩
  { identity with signature := signature identity }

/-- The modeled method of a row, given by the texts of its columns. -/
def decode? (cell : Nat → String) : Variant → Option ModeledMethod
  | .source => some
    ⟨identityOf (cell 0) (cell 1) (cell 3) (cell 4),
      .source (cell 6) (cell 7) (.ofColumn (cell 8))⟩
  | .sink => some
    ⟨identityOf (cell 0) (cell 1) (cell 3) (cell 4),
      .sink (cell 6) (cell 7) (.ofColumn (cell 8))⟩
  | .summary => some
    ⟨identityOf (cell 0) (cell 1) (cell 3) (cell 4),
      .summary (cell 6) (cell 7) (cell 8) (.ofColumn (cell 9))⟩
  | .neutral => some
    ⟨identityOf (cell 0) (cell 1) (cell 2) (cell 3),
      .neutral (cell 4) (.ofColumn (cell 5))⟩
  | .type | .none => none

/-! ## Arguments -/

/-- The positions of an endpoint. -/
def arguments (identity : Identity) : ArgumentOptions :=
  let numbered := identity.parameterNames.mapIdx fun i name => Argument.named (toString i) name
  (ArgumentOptions.ofParameters "Argument[this]" numbered).withReceiver "Argument[this]"

end Dataflow.Flat
