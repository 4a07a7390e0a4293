import Dataflow.CommandLine.Arguments
import Dataflow.Display
import Dataflow.Ecosystem

/-!
# Commands

* `Command`: what the program can be asked to do.
* `Form`: the name of a command, the arguments it takes and the command they make.
* `Invocation.ofArguments`: what a command line asks for. Two options may stand in front of the name
  of a command or behind it; behind it they count more.
-/

namespace Dataflow.CommandLine

/-! ## Commands -/

/-- Where a text comes from. -/
inductive Source where
  | standardInput
  | file (path : String)
  deriving DecidableEq, Repr

/-- A lone hyphen is the standard input. -/
def Source.ofText (text : String) : Source :=
  if text = "-" then .standardInput else .file text

/-- What the program is asked to do. -/
inductive Command where
  /-- Cut an access path into tokens. -/
  | tokens (path : String)
  /-- Report what is wrong with an access path. -/
  | validatePath (path : String)
  /-- Read rows of one variant as models. -/
  | decode (language : Option Ecosystem) (variant : Variant) (input : Source)
  /-- Write models as rows. -/
  | encode (language : Option Ecosystem) (input : Source) (includeTypes : Bool)
  /-- List the argument positions of a method. -/
  | arguments (language : Option Ecosystem) (signature : String) (input : Source)
  /-- Complete an access path. -/
  | suggest (language : Option Ecosystem) (input : Source) (signature value : String)
  /-- Show groups and methods in order. -/
  | sort (methods : Source) (models : Option Source) (unsaved autoProcessed : List String)
      (mode : Option Mode)
  /-- Report duplicate and conflicting models. -/
  | validateModels (models : Source)
  /-- Compare the marks of methods with their models. -/
  | checkConsistency (methods models : Source)
  deriving DecidableEq, Repr

/-! ## Options -/

/-- An option that stands at most once. -/
def single (name : String) (accepts : String → Bool) : ValueOption :=
  ⟨name, accepts, false⟩

/-- An option whose value is any text. -/
def textOption (name : String) : ValueOption :=
  single name fun _ => true

/-- An option whose value is a path. -/
def pathOption (name : String) : ValueOption :=
  single name (· != "")

/-- An option whose values are texts. -/
def textsOption (name : String) : ValueOption :=
  ⟨name, fun _ => true, true⟩

/-- The option that names an ecosystem. -/
def languageOption : ValueOption :=
  single "language" fun text => (Ecosystem.ofText? text).isSome

/-- The option that names a variant. -/
def variantOption : ValueOption :=
  single "variant" fun text => (Named.ofName? text : Option Variant).isSome

/-- The option that names a mode. -/
def modeOption : ValueOption :=
  single "mode" fun text => (Named.ofName? text : Option Mode).isSome

/-- The levels of the messages that accompany a run. They do not change an answer. -/
def logLevels : List String :=
  ["trace", "debug", "info", "warn", "error"]

/-- The options that every command takes. -/
def sharedOptions : List ValueOption :=
  [pathOption "config", single "log-level" logLevels.contains]

namespace Given

/-- The ecosystem that is named. -/
def language? (given : Given) : Option Ecosystem :=
  (given.value? "language").bind Ecosystem.ofText?

/-- The source of an option. -/
def source? (given : Given) (name : String) : Option Source :=
  (given.value? name).map Source.ofText

/-- The named value of an option. -/
def named? {α : Type} [Named α] (given : Given) (name : String) : Option α :=
  (given.value? name).bind Named.ofName?

end Given

/-! ## Forms -/

/-- A command as it is written. -/
structure Form where
  name : String
  options : List ValueOption
  flags : List String
  /-- The number of plain arguments. -/
  room : Nat
  /-- The command that is meant, unless something is missing. -/
  build : Given → Option Command

/-- The arguments of a form. -/
def Form.grammar (form : Form) : Grammar :=
  ⟨sharedOptions ++ form.options, form.flags, form.room, false⟩

/-- The commands of the program. -/
def forms : List Form :=
  [⟨"tokens", [], [], 1, fun given => given.plain.head?.map .tokens⟩,
    ⟨"validate-path", [], [], 1, fun given => given.plain.head?.map .validatePath⟩,
    ⟨"decode", [languageOption, variantOption, pathOption "input"], [], 0, fun given => do
      let variant ← given.named? "variant"
      return .decode given.language? variant ((given.source? "input").getD .standardInput)⟩,
    ⟨"encode", [languageOption, pathOption "input"], ["include-type-models"], 0, fun given =>
      some <| .encode given.language? ((given.source? "input").getD .standardInput)
        (given.hasFlag "include-type-models")⟩,
    ⟨"arguments", [languageOption, textOption "signature", pathOption "input"], [], 0,
      fun given => do
        let signature ← given.value? "signature"
        let input ← given.source? "input"
        return .arguments given.language? signature input⟩,
    ⟨"suggest", [languageOption, pathOption "input", textOption "signature", textOption "value"],
      [], 0, fun given => do
        let input ← given.source? "input"
        let signature ← given.value? "signature"
        return .suggest given.language? input signature ((given.value? "value").getD "")⟩,
    ⟨"sort",
      [pathOption "methods", pathOption "models", textsOption "modified",
        textsOption "auto-processed", modeOption], [], 0, fun given => do
        let methods ← given.source? "methods"
        return .sort methods (given.source? "models") (given.valuesOf "modified")
          (given.valuesOf "auto-processed") (given.named? "mode")⟩,
    ⟨"validate-models", [pathOption "models"], [], 0, fun given =>
      (given.source? "models").map .validateModels⟩,
    ⟨"check-consistency", [pathOption "methods", pathOption "models"], [], 0, fun given => do
      let methods ← given.source? "methods"
      let models ← given.source? "models"
      return .checkConsistency methods models⟩]

/-- The form of a name. -/
def formOf? (name : String) : Option Form :=
  forms.find? fun form => form.name == name

/-! ## Invocations -/

/-- What a command line asks for. -/
inductive Invocation where
  /-- The line cannot be understood. -/
  | misuse
  | help
  | version
  /-- Run a command with the settings of a file, or those of the project. -/
  | run (settingsFile : Option String) (command : Command)
  deriving DecidableEq, Repr

namespace Invocation

/-- The answer to a scan that ended early. -/
def ofStop : Stop → Invocation
  | .misuse => misuse
  | .help => help
  | .version => version

/-- The arguments in front of the name of a command. -/
def grammar : Grammar :=
  ⟨sharedOptions, [], 0, true⟩

/-- What a form and its arguments ask for. -/
def ofForm (shared : Given) (form : Form) (arguments : List String) : Invocation :=
  match form.grammar.scan .empty arguments with
  | .error stop => ofStop stop
  | .ok (given, _) =>
    match form.build given with
    | some command => run ((given.value? "config").or (shared.value? "config")) command
    | none => misuse

/-- What the request for help asks for: no more than one command that exists. -/
def ofHelp : List String → Invocation
  | [] => help
  | [name] => if name = "help" ∨ (formOf? name).isSome then help else misuse
  | _ => misuse

/-- What a command line asks for. -/
def ofArguments (arguments : List String) : Invocation :=
  match grammar.scan .empty arguments with
  | .error stop => ofStop stop
  | .ok (_, []) => misuse
  | .ok (shared, name :: rest) =>
    if name = "help" then ofHelp rest
    else
      match formOf? name with
      | some form => ofForm shared form rest
      | none => misuse

end Invocation

end Dataflow.CommandLine
