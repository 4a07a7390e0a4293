import Dataflow.Codec
import Dataflow.CommandLine.Command
import Dataflow.Consistency
import Dataflow.Failure
import Dataflow.Json.Reader
import Dataflow.Suggestion.Completion
import Dataflow.Validation
import Dataflow.Wire.Model
import Dataflow.Wire.Report
import Dataflow.Wire.Row
import Dataflow.Wire.Suggestion

/-!
# Answers of commands

* `answer`: the response of a command on a host, or why it fails.
* `run`: the output and the exit status for a command line.

A command that works with an ecosystem first reads the settings, then decides on the ecosystem, and
reads its input last. Inputs are read one after another, each when it is needed.
-/

namespace Dataflow.CommandLine

variable {m : Type → Type} [Monad m]

/-- What a command does on a host in `m`. -/
abbrev Work (m : Type → Type) := ExceptT Failure m

/-! ## Inputs -/

/-- The failure to read a file. -/
def unreadable (path : String) : ReadError → Failure
  | .notFound => .fileNotFound path
  | error => .invalidArguments ("failed to read " ++ path ++ ": " ++ error.message) none

/-- The text of a source. -/
def readSource (host : Host m) (source : Source) : Work m String := do
  match source with
  | .standardInput =>
    match ← host.readInput with
    | .ok text => return text
    | .error error => throw (.internal ("failed to read stdin: " ++ error.message))
  | .file path =>
    match ← host.readFile path with
    | .ok text => return text
    | .error error => throw (unreadable path error)

/-- The values in the JSON array of a source. -/
def readValues {α : Type} (host : Host m) (read : Json → Option α) (source : Source) :
    Work m (List α) := do
  let text ← readSource host source
  match Json.read? text with
  | none => throw (.invalidArguments "malformed JSON input: this is no JSON text" none)
  | some json =>
    match json.list? read with
    | some values => return values
    | none => throw (.invalidArguments "malformed JSON input: this has another form" none)

/-- The models of a source, by signature. -/
def readModels (host : Host m) (source : Source) : Work m ModelIndex :=
  ModelIndex.ofList <$> readValues host ModeledMethod.ofJson? source

/-! ## Settings -/

/-- The settings of a file, or those of the project around the working directory. -/
def readSettings (host : Host m) (file : Option String) : Work m Settings :=
  ExceptT.adapt Failure.settings <|
    match file with
    | some path => Settings.load host path
    | none => do Settings.discover host (← host.workingDirectory)

/-- The ecosystem that is named, or else the one of the settings. -/
def chooseLanguage (named : Option Ecosystem) (settings : Settings) : Work m Ecosystem :=
  match named.or settings.language with
  | some language => return language
  | none =>
    throw <| .invalidArguments
      "no language given: pass --language or set flowmodel.language in the config file" none

/-- The entry that names an ecosystem. -/
def languageEntry (language : Ecosystem) : String × Json :=
  ("language", .ofNamed language)

/-! ## Commands -/

/-- The answer to `tokens`. -/
def answerTokens (path : String) : Json :=
  Response.success
    [("path", .string path), ("tokens", .ofList AccessPath.Token.toJson (AccessPath.tokens path))]

/-- The answer to `validate-path`. -/
def answerValidatePath (path : String) : Json :=
  let diagnostics := AccessPath.diagnostics path
  Response.success
    [("path", .string path), ("valid", .boolean diagnostics.isEmpty),
      ("diagnostics", .ofList AccessPath.Diagnostic.toJson diagnostics)]

/-- The answer to `decode`. -/
def answerDecode (language : Ecosystem) (variant : Variant) (rows : List Row) :
    Except Failure Json :=
  match language.decodeRows variant rows with
  | .error error => .error (.row error)
  | .ok decoded => .ok <|
    Response.success
      [languageEntry language, ("models", .ofList ModeledMethod.toJson decoded.models),
        ("skipped", .ofNat decoded.skipped)]

/-- The answer to `encode`. -/
def answerEncode (language : Ecosystem) (includeTypes : Bool) (models : List ModeledMethod) :
    Json :=
  let rows := (language.encodeModels includeTypes models).map fun (predicate, rows) =>
    (predicate, Json.ofList Row.toJson rows)
  Response.success [languageEntry language, ("rows", .object rows)]

/-- The answer to `arguments`, for the first method of the signature. -/
def answerArguments (language : Ecosystem) (signature : String) (methods : List Method) :
    Except Failure Json :=
  match methods.find? fun method => method.signature == signature with
  | none => .error (.unknownSignature signature)
  | some method =>
    let identity := (language.resolveType method).identity
    .ok <| Response.success <|
      [("signature", .string signature), ("endpoint_type", .ofNamed identity.endpointType)] ++
        (language.arguments identity).entries

/-- The answer to `suggest`. -/
def answerSuggest (language : Ecosystem) (signature value : String) (tuples : List Row) :
    Except Failure Json :=
  let forests := Completion.forests (SuggestionRow.ofTuples language tuples)
  match forests.get? signature with
  | none => .error (.unknownSignature signature)
  | some forest => .ok <|
    Response.success
      [("signature", .string signature), ("value", .string value),
        ("options", .ofList Completion.toJson (Completion.matching forest value))]

/-- A group of methods as JSON. -/
def groupJson (group : String × List String) : Json :=
  .object [("name", .string group.1), ("methods", .ofList .string group.2)]

/-- The answer to `sort`. -/
def answerSort (mode : Mode) (progress : Display.Progress) (methods : List Method) : Json :=
  Response.success [("groups", .ofList groupJson (Display.layOut mode progress methods))]

/-- The findings about the models of a signature, if there are any. -/
def findingsEntry? (entry : String × List ModeledMethod) : Option (String × Json) :=
  let findings := Validation.findings entry.2
  if findings.isEmpty then none
  else some (entry.1, .ofList Validation.Finding.toJson findings)

/-- The answer to `validate-models`. -/
def answerValidateModels (models : ModelIndex) : Json :=
  let errors := models.filterMap findingsEntry?
  Response.success [("valid", .boolean errors.isEmpty), ("errors", .object errors)]

/-- The answer to `check-consistency`. -/
def answerCheckConsistency (methods : List Method) (models : ModelIndex) : Json :=
  Response.success
    [("notices",
      .ofList Consistency.Notice.toJson (Consistency.notices methods models))]

/-- The work that ends with a result at once. -/
def settle {α : Type} (result : Except Failure α) : Work m α :=
  ExceptT.mk (pure result)

/-- The answer of a command. -/
def answer (host : Host m) (settingsFile : Option String) : Command → Work m Json
  | .tokens path => return answerTokens path
  | .validatePath path => return answerValidatePath path
  | .decode named variant input => do
    let settings ← readSettings host settingsFile
    let language ← chooseLanguage named settings
    let rows ← readValues host Row.ofJson? input
    settle (answerDecode language variant rows)
  | .encode named input includeTypes => do
    let settings ← readSettings host settingsFile
    let language ← chooseLanguage named settings
    let models ← readValues host ModeledMethod.ofJson? input
    return answerEncode language (includeTypes || settings.showTypeModels) models
  | .arguments named signature input => do
    let settings ← readSettings host settingsFile
    let language ← chooseLanguage named settings
    let methods ← readValues host Method.ofJson? input
    settle (answerArguments language signature methods)
  | .suggest named input signature value => do
    let settings ← readSettings host settingsFile
    let language ← chooseLanguage named settings
    let tuples ← readValues host Row.ofJson? input
    settle (answerSuggest language signature value tuples)
  | .sort methods models unsaved autoProcessed mode => do
    let settings ← readSettings host settingsFile
    let methods ← readValues host Method.ofJson? methods
    let models ←
      match models with
      | some source => readModels host source
      | none => pure []
    return answerSort (mode.getD settings.mode) ⟨models, unsaved, autoProcessed⟩ methods
  | .validateModels models => answerValidateModels <$> readModels host models
  | .checkConsistency methods models => do
    let methods ← readValues host Method.ofJson? methods
    return answerCheckConsistency methods (← readModels host models)

/-! ## Command lines -/

/-- The end of a run. -/
structure Outcome where
  code : Nat
  output : String
  deriving DecidableEq, Repr

/-- The name and the version of the program. -/
def versionText : String := "flowmodel 0.1.0\n"

/-- How the program is called. -/
def helpText : String :=
  "Data-flow endpoint model tooling\n\nUsage: flowmodel [OPTIONS] <COMMAND>\n\nCommands:\n" ++
    String.join (forms.map fun form => "  " ++ form.name ++ "\n")

/-- The outcome of a command that answers or fails. -/
def Outcome.ofResult : Except Failure Json → Outcome
  | .ok response => ⟨0, Response.render response⟩
  | .error failure => ⟨failure.code, Response.render (Response.failure failure)⟩

/-- The outcome of an invocation. A line that cannot be understood has no output. -/
def perform (host : Host m) : Invocation → m Outcome
  | .misuse => return ⟨2, ""⟩
  | .help => return ⟨0, helpText⟩
  | .version => return ⟨0, versionText⟩
  | .run settingsFile command => Outcome.ofResult <$> (answer host settingsFile command).run

/-- The outcome of a command line. -/
def run (host : Host m) (arguments : List String) : m Outcome :=
  perform host (.ofArguments arguments)

end Dataflow.CommandLine
