import Dataflow.Json.Record
import Dataflow.Suggestion.Completion

/-!
# Suggestions in JSON

A completion leaves out its details when they are absent and its followup when there is none.
Details that are present and empty stay.
-/

namespace Dataflow

namespace SuggestionRow

/-- The field names of a suggestion row. -/
def fieldNames : List String :=
  ["methodSignature", "value", "details", "definitionKind"]

/-- A suggestion row as JSON. -/
def toJson (row : SuggestionRow) : Json :=
  .object
    [("methodSignature", .string row.signature), ("value", .string row.value),
      ("details", .string row.details), ("definitionKind", .ofNamed row.kind)]

/-- The suggestion row a JSON value holds. -/
def ofJson? (json : Json) : Option SuggestionRow := do
  let fields ← json.record? fieldNames
  let signature ← fields.required "methodSignature" Json.string?
  let value ← fields.required "value" Json.string?
  let details ← fields.defaulting "details" Json.string? ""
  let kind ← fields.required "definitionKind" Json.named?
  return ⟨signature, value, details, kind⟩

end SuggestionRow

namespace Completion

/-- The field names of a completion. -/
def fieldNames : List String :=
  ["label", "value", "icon", "details", "followup"]

mutual

/-- A completion as JSON. -/
def toJson : Completion → Json
  | node label value icon details [] =>
    .object <|
      [("label", .string label), ("value", .string value), ("icon", .string icon)] ++
        Json.optionalEntry "details" .string details
  | node label value icon details (option :: options) =>
    .object <|
      [("label", .string label), ("value", .string value), ("icon", .string icon)] ++
        Json.optionalEntry "details" .string details ++
        [("followup", .array (toJson option :: toJsonList options))]

/-- Completions as JSON. -/
def toJsonList : List Completion → List Json
  | [] => []
  | option :: options => toJson option :: toJsonList options

end

/-- The completion a JSON value holds, with at most so many levels. -/
def ofJsonWithin? : Nat → Json → Option Completion
  | 0, _ => none
  | levels + 1, json => do
    let fields ← json.record? fieldNames
    let label ← fields.required "label" Json.string?
    let value ← fields.required "value" Json.string?
    let icon ← fields.required "icon" Json.string?
    let details ← fields.optional "details" Json.string?
    let followup ← fields.defaulting "followup" (Json.list? (ofJsonWithin? levels)) []
    return node label value icon details followup

/-- The completion a JSON value holds. -/
def ofJson? (json : Json) : Option Completion :=
  ofJsonWithin? json.height json

end Completion

end Dataflow
