import Dataflow.Json.Record
import Dataflow.Settings

/-!
# Settings in JSON

All settings are written; an ecosystem that is absent is null. When read, each may be missing.
-/

namespace Dataflow.Settings

/-- Settings as JSON. -/
def toJson (settings : Settings) : Json :=
  .object
    [(tableName,
      .object
        [("language", (settings.language.map Json.ofNamed).getD .null),
          ("mode", .ofNamed settings.mode),
          ("show_type_models", .boolean settings.showTypeModels)])]

/-- The settings of the object that holds them. -/
def ofFields? (json : Json) : Option Settings := do
  let fields ← json.record? fieldNames
  let language ← fields.optional "language" Json.named?
  let mode ← fields.defaulting "mode" Json.named? .application
  let showTypeModels ← fields.defaulting "show_type_models" Json.boolean? false
  return ⟨language, mode, showTypeModels⟩

/-- The settings a JSON value holds. -/
def ofJson? (json : Json) : Option Settings := do
  let fields ← json.record? [tableName]
  fields.defaulting tableName ofFields? standard

end Dataflow.Settings
