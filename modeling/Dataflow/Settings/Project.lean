import Dataflow.Host
import Dataflow.Path
import Dataflow.Settings
import Dataflow.Toml.Reader

/-!
# The settings of a project

A project is a directory with a directory `.flowmodel` in it, which may hold the file `config.toml`.

* `load`: the settings in a file.
* `ofProject`: the settings of a project, the standard ones without a file.
* `projectRoot?`, `discover`: the nearest project at or above a path, and its settings.
-/

namespace Dataflow.Settings

variable {m : Type → Type} [Monad m]

/-- Why settings cannot be had. -/
inductive LoadError where
  | unreadable (path : String) (error : ReadError)
  | malformed (path : String)
  deriving DecidableEq, Repr

/-- The text of an error. -/
def LoadError.message : LoadError → String
  | unreadable path error => "failed to read config file " ++ path ++ ": " ++ error.message
  | malformed path => "failed to parse config file " ++ path ++ ": these are no settings"

/-- The directory of a project that holds its settings. -/
def directoryName : String := ".flowmodel"

/-- The file that holds the settings of a project. -/
def fileName : String := "config.toml"

/-- The settings of a text. -/
def ofText? (text : String) : Option Settings :=
  (Toml.read? text).bind ofEntries?

/-- The settings in a file. -/
def load (host : Host m) (path : String) : ExceptT LoadError m Settings := do
  match ← host.readFile path with
  | .error error => throw (.unreadable path error)
  | .ok text =>
    match ofText? text with
    | some settings => return settings
    | none => throw (.malformed path)

/-- The settings of a project. -/
def ofProject (host : Host m) (root : String) : ExceptT LoadError m Settings := do
  let path := Path.join (Path.join root directoryName) fileName
  if ← host.hasPath path then load host path else return standard

/-- The first of some directories that is a project. -/
def firstProject? (host : Host m) : List String → m (Option String)
  | [] => return none
  | directory :: directories => do
    if ← host.isDirectory (Path.join directory directoryName) then return some directory
    else firstProject? host directories

/-- The nearest project at or above a path. -/
def projectRoot? (host : Host m) (path : String) : m (Option String) :=
  firstProject? host (Path.ancestors path)

/-- The settings of the nearest project at or above a path, the standard ones without one. -/
def discover (host : Host m) (path : String) : ExceptT LoadError m Settings := do
  match ← (projectRoot? host path : m (Option String)) with
  | some root => ofProject host root
  | none => return standard

end Dataflow.Settings
