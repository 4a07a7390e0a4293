import Dataflow.Codec.Flat
import Dataflow.Codec.MemberChain
import Dataflow.Codec.MethodToken
import Dataflow.Keyed
import Dataflow.Method

/-!
# The codec of an ecosystem

Java and C# write flat rows, Python rows with a chain of members and Ruby rows with a method token.
Here each operation is chosen by the ecosystem.

* `encode`, `decode`, `decodeChecked`: between modeled methods and rows.
* `decodeRows`, `encodeModels`: the same for lists, skipping what has no counterpart.
* `Registry`: a set of ecosystems that can be looked up.
-/

namespace Dataflow

namespace Ecosystem

/-! ## Tables -/

/-- The signature of an endpoint. The one it carries is not read. -/
def signature : Ecosystem → Identity → String
  | java | csharp => Flat.signature
  | python => MemberChain.signature
  | ruby => MethodToken.signature

/-- The columns of a variant, none when it is not supported. -/
def columns? : Ecosystem → Variant → Option (List ColumnKind)
  | java | csharp => Flat.columns?
  | python => MemberChain.columns?
  | ruby => MethodToken.columns?

/-- The endpoint types a variant may be attached to. -/
def endpointTypes : Ecosystem → Variant → List EndpointType
  | java | csharp => Flat.endpointTypes
  | python => MemberChain.endpointTypes
  | ruby => MethodToken.endpointTypes

/-- The predicate written for a variant, none when it is not supported. -/
def predicate? (ecosystem : Ecosystem) (variant : Variant) : Option String :=
  (ecosystem.columns? variant).bind fun _ => variant.predicate?

/-! ## One row -/

/-- The row of a modeled method. -/
def encode (ecosystem : Ecosystem) (modeled : ModeledMethod) : Except RowError Row :=
  let row :=
    match ecosystem with
    | java | csharp => Flat.encode? modeled.identity modeled.model
    | python => MemberChain.encode? modeled.identity modeled.model
    | ruby => MethodToken.encode? modeled.identity modeled.model
  row.elim (.error (.unsupportedVariant ecosystem modeled.variant)) .ok

/-- The modeled method of a row, given by the texts of its columns. -/
def decodeCells (ecosystem : Ecosystem) (variant : Variant) (cell : Nat → String) :
    Except RowError ModeledMethod :=
  match ecosystem with
  | java | csharp =>
    (Flat.decode? cell variant).elim (.error (.unsupportedVariant ecosystem variant)) .ok
  | python => MemberChain.decode cell variant
  | ruby =>
    (MethodToken.decode? cell variant).elim (.error (.unsupportedVariant ecosystem variant)) .ok

/-- The modeled method of a row of any shape. -/
def decode (ecosystem : Ecosystem) (variant : Variant) (row : Row) :
    Except RowError ModeledMethod :=
  ecosystem.decodeCells variant row.textAt

/-- The modeled method of a row that has the columns of the variant. -/
def decodeChecked (ecosystem : Ecosystem) (variant : Variant) (row : Row) :
    Except RowError ModeledMethod :=
  match ecosystem.columns? variant with
  | none => .error (.unsupportedVariant ecosystem variant)
  | some columns =>
    match checkShape variant columns row with
    | .error error => .error error
    | .ok () => ecosystem.decode variant row

/-! ## Endpoints -/

/-- The positions of an endpoint. -/
def arguments : Ecosystem → Identity → ArgumentOptions
  | java | csharp => Flat.arguments
  | python => MemberChain.arguments
  | ruby => MethodToken.arguments

/-- What an endpoint listed with a kind is, none where the listed endpoint type stands. -/
def endpointType? : Ecosystem → Identity → Option String → Option EndpointType
  | java, _, _ | csharp, _, _ => none
  | python, identity, kind => some (MemberChain.endpointTypeOf identity kind)
  | ruby, identity, _ => some (MethodToken.endpointType identity.typeName identity.method)

/-- The endpoint that a type column and a path name, where columns do. -/
def identityOfPath? : Ecosystem → String → String → Option Identity
  | java, _, _ | csharp, _, _ => none
  | python, column, path => some (MemberChain.parse column path).identity
  | ruby, column, path => some (MethodToken.identityOf column (MethodToken.splitPath path).1)

/-- A method with the endpoint type of the ecosystem. -/
def resolveType (ecosystem : Ecosystem) (method : Method) : Method :=
  match ecosystem.endpointType? method.identity method.endpointKind with
  | none => method
  | some endpointType => { method with identity.endpointType := endpointType }

/-- Methods with the endpoint types of the ecosystem. -/
def resolveTypes (ecosystem : Ecosystem) (methods : List Method) : List Method :=
  methods.map ecosystem.resolveType

/-! ## Many rows -/

/-- The models of the rows that fit, and how many do not. -/
structure DecodedRows where
  models : List ModeledMethod
  skipped : Nat
  deriving DecidableEq, Repr

/-- Read one more row. -/
def DecodedRows.read (ecosystem : Ecosystem) (variant : Variant) (row : Row)
    (decoded : DecodedRows) : DecodedRows :=
  match ecosystem.decodeChecked variant row with
  | .ok modeled => { decoded with models := modeled :: decoded.models }
  | .error _ => { decoded with skipped := decoded.skipped + 1 }

/-- The models of rows of one variant, in order. -/
def decodeRows (ecosystem : Ecosystem) (variant : Variant) (rows : List Row) :
    Except RowError DecodedRows :=
  match ecosystem.columns? variant with
  | none => .error (.unsupportedVariant ecosystem variant)
  | some _ => .ok (rows.foldr (DecodedRows.read ecosystem variant) ⟨[], 0⟩)

/-- The predicate and the row of a model that is written. Type models are written on request. -/
def encodeEntry? (ecosystem : Ecosystem) (includeTypes : Bool) (modeled : ModeledMethod) :
    Option (String × Row) :=
  if modeled.variant = .none ∨ (modeled.variant = .type ∧ includeTypes = false) then none
  else
    match ecosystem.predicate? modeled.variant, ecosystem.encode modeled with
    | some predicate, .ok row => some (predicate, row)
    | _, _ => none

/-- The rows of models, by predicate. -/
def encodeModels (ecosystem : Ecosystem) (includeTypes : Bool) (models : List ModeledMethod) :
    Keyed (List Row) :=
  (Keyed.group Prod.fst (models.filterMap (ecosystem.encodeEntry? includeTypes))).map
    fun (predicate, entries) => (predicate, entries.map Prod.snd)

/-! ## Registered ecosystems -/

/-- The word for an ecosystem in a description of a registry. -/
def title : Ecosystem → String
  | java => "Java"
  | csharp => "CSharp"
  | python => "Python"
  | ruby => "Ruby"

end Ecosystem

/-- The ecosystems that can be looked up. -/
structure Registry where
  registered : List Ecosystem

namespace Registry

/-- No ecosystem. -/
def empty : Registry := ⟨[]⟩

/-- Every ecosystem. -/
def standard : Registry := ⟨Named.all⟩

/-- Add an ecosystem. -/
def register (registry : Registry) (ecosystem : Ecosystem) : Registry :=
  ⟨ecosystem :: registry.registered⟩

/-- Look up an ecosystem. -/
def get (registry : Registry) (ecosystem : Ecosystem) : Except RowError Ecosystem :=
  if registry.registered.contains ecosystem then .ok ecosystem
  else .error (.unknownEcosystem ecosystem.name)

/-- The ecosystems of a registry, each once and in a fixed order. -/
def ecosystems (registry : Registry) : List Ecosystem :=
  (Named.all : List Ecosystem).filter registry.registered.contains

/-- A registry in words. -/
def describe (registry : Registry) : String :=
  "AdapterRegistry \x7b ecosystems: [" ++
    ", ".intercalate (registry.ecosystems.map Ecosystem.title) ++ "] \x7d"

end Registry

end Dataflow
