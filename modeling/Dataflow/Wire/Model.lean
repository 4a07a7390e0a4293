import Dataflow.Wire.Endpoint

/-!
# Models in JSON

A model is an object with its variant under `type` and the fields of that variant. In a modeled
method they stand beside the fields of the identity.

An array of the variant and its fields in order is read as a model too. In a modeled method the
variant may also be given by its number, counted from `none`.
-/

namespace Dataflow

open Json (Fields)

namespace Model

/-- The field names of a variant. -/
def fieldNames : Variant → List String
  | .none => []
  | .source => ["output", "kind", "provenance"]
  | .sink => ["input", "kind", "provenance"]
  | .summary => ["input", "output", "kind", "provenance"]
  | .neutral => ["kind", "provenance"]
  | .type => ["relatedTypeName", "path"]

/-- The entries of the fields of a model. -/
def fieldEntries : Model → List (String × Json)
  | .none => []
  | .source output kind provenance =>
    [("output", .string output), ("kind", .string kind), ("provenance", .ofNamed provenance)]
  | .sink input kind provenance =>
    [("input", .string input), ("kind", .string kind), ("provenance", .ofNamed provenance)]
  | .summary input output kind provenance =>
    [("input", .string input), ("output", .string output), ("kind", .string kind),
      ("provenance", .ofNamed provenance)]
  | .neutral kind provenance => [("kind", .string kind), ("provenance", .ofNamed provenance)]
  | .type relatedType path =>
    [("relatedTypeName", .string relatedType), ("path", .string path)]

/-- The entries of a model. -/
def entries (model : Model) : List (String × Json) :=
  ("type", .ofNamed model.variant) :: model.fieldEntries

/-- A model as JSON. -/
def toJson (model : Model) : Json :=
  .object model.entries

/-- The model of a variant with some fields. -/
def ofFields? (fields : Fields) : Variant → Option Model
  | .none => some .none
  | .source => do
    let output ← fields.required "output" Json.string?
    let kind ← fields.required "kind" Json.string?
    let provenance ← fields.defaulting "provenance" Json.named? .manual
    return .source output kind provenance
  | .sink => do
    let input ← fields.required "input" Json.string?
    let kind ← fields.required "kind" Json.string?
    let provenance ← fields.defaulting "provenance" Json.named? .manual
    return .sink input kind provenance
  | .summary => do
    let input ← fields.required "input" Json.string?
    let output ← fields.required "output" Json.string?
    let kind ← fields.required "kind" Json.string?
    let provenance ← fields.defaulting "provenance" Json.named? .manual
    return .summary input output kind provenance
  | .neutral => do
    let kind ← fields.required "kind" Json.string?
    let provenance ← fields.defaulting "provenance" Json.named? .manual
    return .neutral kind provenance
  | .type => do
    let relatedType ← fields.required "relatedTypeName" Json.string?
    let path ← fields.required "path" Json.string?
    return .type relatedType path

/-- The model of some entries, the variant of which is read from the entry `type`. -/
def ofEntries? (variant? : Json → Option Variant) (entries : List (String × Json)) :
    Option Model := do
  let tag ← Json.select? ["type"] entries
  let variant ← tag.required "type" variant?
  let fields ← Json.select? (fieldNames variant) entries
  ofFields? fields variant

/-- The variant of a name. -/
def variantOfName? (json : Json) : Option Variant :=
  json.string?.bind Named.ofName?

/-- The variant of a name or a number. -/
def variantOfTag? (json : Json) : Option Variant :=
  (variantOfName? json).or ((json.natBelow? 6).bind fun n => (Named.all : List Variant)[n]?)

/-- The model a JSON value holds. -/
def ofJson? : Json → Option Model
  | .object entries => ofEntries? variantOfName? entries
  | .array (tag :: items) => do
    let variant ← variantOfName? tag
    if variant = .none then return .none
    let fields ← (Json.array items).record? (fieldNames variant)
    ofFields? fields variant
  | _ => Option.none

end Model

namespace ModeledMethod

/-- A modeled method as JSON. -/
def toJson (modeled : ModeledMethod) : Json :=
  .object (modeled.identity.entries ++ modeled.model.entries)

/-- The modeled method a JSON object holds. -/
def ofJson? : Json → Option ModeledMethod
  | .object entries => do
    let fields ← Json.select? Identity.fieldNames entries
    let identity ← Identity.ofFields? fields
    let model ← Model.ofEntries? Model.variantOfTag? entries
    return ⟨identity, model⟩
  | _ => none

end ModeledMethod

end Dataflow
