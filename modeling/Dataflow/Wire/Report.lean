import Dataflow.AccessPath.Diagnostic
import Dataflow.Argument
import Dataflow.Consistency
import Dataflow.Json.Record
import Dataflow.Validation

/-!
# Reports in JSON

Tokens, diagnostics, argument positions, findings and notices.
-/

namespace Dataflow

/-! ## Access paths -/

namespace Range

/-- A range as JSON. -/
def toJson (range : Range) : Json :=
  .object [("start", .ofNat range.start), ("end", .ofNat range.stop)]

/-- The range a JSON value holds. -/
def ofJson? (json : Json) : Option Range := do
  let fields ← json.record? ["start", "end"]
  let start ← fields.required "start" (Json.natBelow? UInt64.size)
  let stop ← fields.required "end" (Json.natBelow? UInt64.size)
  return ⟨start, stop⟩

end Range

/-- A token as JSON. -/
def AccessPath.Token.toJson (token : AccessPath.Token) : Json :=
  .object [("text", .string token.text), ("range", token.range.toJson)]

namespace AccessPath.Diagnostic

/-- A diagnostic as JSON. -/
def toJson (diagnostic : Diagnostic) : Json :=
  .object [("range", diagnostic.range.toJson), ("message", .ofNamed diagnostic.problem)]

/-- The diagnostic a JSON value holds. -/
def ofJson? (json : Json) : Option Diagnostic := do
  let fields ← json.record? ["range", "message"]
  let range ← fields.required "range" Range.ofJson?
  let problem ← fields.required "message" Json.named?
  return ⟨range, problem⟩

end AccessPath.Diagnostic

/-! ## Arguments -/

namespace Argument

/-- A position as JSON. -/
def toJson (argument : Argument) : Json :=
  .object [("path", .string argument.path), ("label", .string argument.label)]

/-- The position a JSON value holds. -/
def ofJson? (json : Json) : Option Argument := do
  let fields ← json.record? ["path", "label"]
  let path ← fields.required "path" Json.string?
  let label ← fields.required "label" Json.string?
  return ⟨path, label⟩

end Argument

namespace ArgumentOptions

/-- The entries of argument options. -/
def entries (options : ArgumentOptions) : List (String × Json) :=
  [("options", .ofList Argument.toJson options.options),
    ("defaultArgumentPath", .string options.defaultPath)]

/-- Argument options as JSON. -/
def toJson (options : ArgumentOptions) : Json :=
  .object options.entries

/-- The argument options a JSON value holds. -/
def ofJson? (json : Json) : Option ArgumentOptions := do
  let fields ← json.record? ["options", "defaultArgumentPath"]
  let options ← fields.required "options" (Json.list? Argument.ofJson?)
  let defaultPath ← fields.required "defaultArgumentPath" Json.string?
  return ⟨options, defaultPath⟩

end ArgumentOptions

/-! ## Findings -/

namespace Validation.Finding

/-- A finding as JSON. -/
def toJson (finding : Finding) : Json :=
  .object
    [("index", .ofNat finding.index), ("kind", .ofNamed finding.rule),
      ("title", .string finding.title), ("message", .string finding.message),
      ("actionText", .string finding.actionText)]

/-- The finding a JSON value holds. -/
def ofJson? (json : Json) : Option Finding := do
  let fields ← json.record? ["index", "kind", "title", "message", "actionText"]
  let index ← fields.required "index" (Json.natBelow? UInt64.size)
  let rule ← fields.required "kind" Json.named?
  let title ← fields.required "title" Json.string?
  let message ← fields.required "message" Json.string?
  let actionText ← fields.required "actionText" Json.string?
  return ⟨index, rule, title, message, actionText⟩

end Validation.Finding

/-! ## Notices -/

namespace Consistency.Notice

/-- A notice as JSON. -/
def toJson : Notice → Json
  | missingMethod signature =>
    .object [("type", .string "missing_method"), ("signature", .string signature)]
  | inconsistentSupported signature expected =>
    .object
      [("type", .string "inconsistent_supported"), ("signature", .string signature),
        ("expectedSupported", .boolean expected)]

/-- The notice of a type name, with its fields in a value. -/
def ofTyped? (typeName : String) (json : Json) : Option Notice :=
  if typeName = "missing_method" then do
    let fields ← json.record? ["signature"]
    let signature ← fields.required "signature" Json.string?
    return .missingMethod signature
  else if typeName = "inconsistent_supported" then do
    let fields ← json.record? ["signature", "expectedSupported"]
    let signature ← fields.required "signature" Json.string?
    let expected ← fields.required "expectedSupported" Json.boolean?
    return .inconsistentSupported signature expected
  else none

/-- The notice a JSON value holds. -/
def ofJson? : Json → Option Notice
  | .object entries => do
    let tag ← Json.select? ["type"] entries
    let typeName ← tag.required "type" Json.string?
    ofTyped? typeName (.object entries)
  | .array (tag :: items) => do
    let typeName ← tag.string?
    ofTyped? typeName (.array items)
  | _ => none

end Consistency.Notice

end Dataflow
