import Dataflow.Json.Record
import Dataflow.Method

/-!
# Endpoints and methods in JSON

The fields of a method stand beside those of its identity in one object. Fields that are absent are
left out; of the fields of a method only those of the identity must stand when it is read.
-/

namespace Dataflow

open Json (Fields)

/-! ## Identities -/

namespace Identity

/-- The field names of an identity. -/
def fieldNames : List String :=
  ["packageName", "typeName", "methodName", "methodParameters", "endpointType", "signature"]

/-- The entries of an identity. -/
def entries (identity : Identity) : List (String × Json) :=
  [("packageName", .string identity.package), ("typeName", .string identity.typeName),
    ("methodName", .string identity.method), ("methodParameters", .string identity.parameters),
    ("endpointType", .ofNamed identity.endpointType), ("signature", .string identity.signature)]

/-- An identity as JSON. -/
def toJson (identity : Identity) : Json :=
  .object identity.entries

/-- The identity of some fields. -/
def ofFields? (fields : Fields) : Option Identity := do
  let package ← fields.required "packageName" Json.string?
  let typeName ← fields.required "typeName" Json.string?
  let method ← fields.required "methodName" Json.string?
  let parameters ← fields.required "methodParameters" Json.string?
  let endpointType ← fields.required "endpointType" Json.named?
  let signature ← fields.required "signature" Json.string?
  return ⟨package, typeName, method, parameters, endpointType, signature⟩

/-- The identity a JSON value holds. -/
def ofJson? (json : Json) : Option Identity :=
  (json.record? fieldNames).bind ofFields?

end Identity

/-! ## Usages -/

namespace Location

/-- The field names of a location. -/
def fieldNames : List String :=
  ["uri", "startLine", "startColumn", "endLine", "endColumn"]

/-- A location as JSON. -/
def toJson (location : Location) : Json :=
  .object
    [("uri", .string location.uri), ("startLine", .ofNat location.startLine.toNat),
      ("startColumn", .ofNat location.startColumn.toNat),
      ("endLine", .ofNat location.endLine.toNat), ("endColumn", .ofNat location.endColumn.toNat)]

/-- The location a JSON value holds. -/
def ofJson? (json : Json) : Option Location := do
  let fields ← json.record? fieldNames
  let uri ← fields.required "uri" Json.string?
  let startLine ← fields.required "startLine" Json.word32?
  let startColumn ← fields.required "startColumn" Json.word32?
  let endLine ← fields.required "endLine" Json.word32?
  let endColumn ← fields.required "endColumn" Json.word32?
  return ⟨uri, startLine, startColumn, endLine, endColumn⟩

end Location

namespace Usage

/-- The field names of a usage. -/
def fieldNames : List String :=
  ["label", "location", "classification"]

/-- A usage as JSON. -/
def toJson (usage : Usage) : Json :=
  .object <|
    ("label", .string usage.label) ::
      Json.optionalEntry "location" Location.toJson usage.location ++
        [("classification", .ofNamed usage.classification)]

/-- The usage a JSON value holds. -/
def ofJson? (json : Json) : Option Usage := do
  let fields ← json.record? fieldNames
  let label ← fields.required "label" Json.string?
  let location ← fields.optional "location" Location.ofJson?
  let classification ← fields.defaulting "classification" Json.named? .unknown
  return ⟨label, location, classification⟩

end Usage

/-! ## Methods -/

namespace Method

/-- The field names of a method, without those of its identity. -/
def fieldNames : List String :=
  ["library", "libraryVersion", "supported", "supportedType", "usages", "endpointKind"]

/-- A method as JSON. -/
def toJson (method : Method) : Json :=
  .object <|
    method.identity.entries ++
      ("library", .string method.library) ::
        Json.optionalEntry "libraryVersion" .string method.libraryVersion ++
      [("supported", .boolean method.supported), ("supportedType", .ofNamed method.supportedType),
        ("usages", .ofList Usage.toJson method.usages)] ++
      Json.optionalEntry "endpointKind" .string method.endpointKind

/-- The method a JSON object holds. -/
def ofJson? (json : Json) : Option Method := do
  let fields ← json.objectFields? (Identity.fieldNames ++ fieldNames)
  let identity ← Identity.ofFields? fields
  let library ← fields.defaulting "library" Json.string? ""
  let libraryVersion ← fields.optional "libraryVersion" Json.string?
  let supported ← fields.defaulting "supported" Json.boolean? false
  let supportedType ← fields.defaulting "supportedType" Json.named? Variant.none
  let usages ← fields.defaulting "usages" (Json.list? Usage.ofJson?) []
  let endpointKind ← fields.optional "endpointKind" Json.string?
  return ⟨identity, library, libraryVersion, supported, supportedType, usages, endpointKind⟩

end Method

end Dataflow
