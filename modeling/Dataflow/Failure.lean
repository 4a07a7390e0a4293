import Dataflow.Json
import Dataflow.Row
import Dataflow.Settings.Project

/-!
# Failures of a command

* `Failure`: the causes, with a code for the exit status and a text.
* `Response`: what a command answers, starting with a status and the version of its form.
-/

namespace Dataflow

/-- Why a command fails. -/
inductive Failure where
  | invalidArguments (reason : String) (details : Option Json)
  | fileNotFound (path : String)
  | unknownSignature (signature : String)
  | row (error : RowError)
  | settings (error : Settings.LoadError)
  | internal (reason : String)

namespace Failure

/-- The exit status: 2 for what the caller gave, 3 for what was not found, 10 for a fault of the
program. -/
def code : Failure → Nat
  | invalidArguments .. | settings _ => 2
  | fileNotFound _ | unknownSignature _ | row (.unknownEcosystem _) => 3
  | row _ => 2
  | internal _ => 10

/-- The text of a failure. -/
def message : Failure → String
  | invalidArguments reason _ => "invalid arguments: " ++ reason
  | fileNotFound path => "file not found: " ++ path
  | unknownSignature signature => "unknown method signature '" ++ signature ++ "'"
  | row error => error.message
  | settings error => error.message
  | internal reason => "internal error: " ++ reason

/-- What a program may want to know of a failure, entries in the order of their keys. -/
def details? : Failure → Option Json
  | invalidArguments _ details => details.map Json.sorted
  | fileNotFound path => some (.object [("path", .string path)])
  | unknownSignature signature => some (.object [("signature", .string signature)])
  | _ => none

end Failure

/-! ## Responses -/

namespace Response

/-- The entries at the start of a response. -/
def heading (status : String) : List (String × Json) :=
  [("status", .string status), ("schema_version", .string "1")]

/-- The response of a command that succeeds. -/
def success (entries : List (String × Json)) : Json :=
  .object (heading "ok" ++ entries)

/-- The response of a command that fails. -/
def failure (failure : Failure) : Json :=
  .object <|
    heading "error" ++
      [("error",
        .object <|
          [("code", .ofNat failure.code), ("message", .string failure.message)] ++
            (failure.details?.map fun details => ("details", details)).toList)]

/-- The text of a response, which ends its line. -/
def render (response : Json) : String :=
  response.pretty ++ "\n"

end Response

end Dataflow
