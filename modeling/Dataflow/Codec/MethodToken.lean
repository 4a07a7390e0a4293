import Dataflow.AccessPath
import Dataflow.Argument
import Dataflow.Row

/-!
# Rows with a method token

Ruby rows name an endpoint by a type column and a path column whose first token may be
`Method[name]`; the rest of the path is the position the model speaks of. A type that ends with `!`
is the singleton of a class.

* `splitPath`: the method a path names and what follows it.
* `encode?`, `decode?`: between modeled methods and rows.
-/

namespace Dataflow.MethodToken

open AccessPath (texts join append)

/-! ## Paths -/

/-- The method name of a token `Method[name]`. The name is not empty and has no closing bracket. -/
def methodName? (token : String) : Option String :=
  (Text.bracketed? "Method" token).filter fun name => name != "" && !name.toList.contains ']'

/-- The method a path names, empty when it names none, and the rest of the path. -/
def splitPath (path : String) : String × String :=
  match texts path with
  | [] => ("", "")
  | first :: rest =>
    match methodName? first with
    | some name => (name, join rest)
    | none => ("", path)

/-- The path of a method, empty without one. -/
def methodPath (method : String) : String :=
  if method = "" then "" else "Method[" ++ method ++ "]"

/-- The path of a position in a method. -/
def pathOf (method position : String) : String :=
  append (methodPath method) position

/-! ## Endpoints -/

/-- What the endpoint of a type and a method is. -/
def endpointType (typeName method : String) : EndpointType :=
  if Text.endsWith '!' typeName && method == "new" then .constructor
  else if method = "" then .classObject
  else .method

/-- The signature of an endpoint. -/
def signature (identity : Identity) : String :=
  identity.typeName ++ "#" ++ identity.method

/-- The endpoint of a type and a method. -/
def identityOf (typeName method : String) : Identity :=
  let identity : Identity := ⟨"", typeName, method, "", endpointType typeName method, ""⟩
  { identity with signature := signature identity }

/-- The endpoint types a variant may be attached to. -/
def endpointTypes : Variant → List EndpointType
  | .source => [.method, .classObject]
  | .sink | .summary => [.method, .constructor]
  | .neutral | .type => [.method, .constructor, .classObject]
  | .none => []

/-! ## Rows -/

/-- The columns of a variant. -/
def columns? : Variant → Option (List ColumnKind)
  | .summary => some [.text, .text, .text, .text, .text]
  | .none => none
  | _ => some [.text, .text, .text]

/-- The row of a modeled method. -/
def encode? (identity : Identity) : Model → Option Row
  | .source output kind _ =>
    some [.text identity.typeName, .text (pathOf identity.method output), .text kind]
  | .sink input kind _ =>
    some [.text identity.typeName, .text (pathOf identity.method input), .text kind]
  | .summary input output kind _ =>
    some [.text identity.typeName, .text (methodPath identity.method), .text input, .text output,
      .text kind]
  | .neutral kind _ =>
    some [.text identity.typeName, .text (methodPath identity.method), .text kind]
  | .type relatedType path =>
    some [.text relatedType, .text identity.typeName, .text (pathOf identity.method path)]
  | .none => none

/-- The modeled method of a row, given by the texts of its columns. -/
def decode? (cell : Nat → String) : Variant → Option ModeledMethod
  | .source =>
    let (method, output) := splitPath (cell 1)
    some ⟨identityOf (cell 0) method, .source output (cell 2) .manual⟩
  | .sink =>
    let (method, input) := splitPath (cell 1)
    some ⟨identityOf (cell 0) method, .sink input (cell 2) .manual⟩
  | .summary => some
    ⟨identityOf (cell 0) (splitPath (cell 1)).1, .summary (cell 2) (cell 3) (cell 4) .manual⟩
  | .neutral => some
    ⟨identityOf (cell 0) (splitPath (cell 1)).1, .neutral (cell 2) .manual⟩
  | .type =>
    let (method, path) := splitPath (cell 2)
    some ⟨identityOf (cell 1) method, .type (cell 0) path⟩
  | .none => none

/-! ## Arguments -/

/-- The position of a parameter: a keyword by its name with a colon, any other by its number. -/
def argument (i : Nat) (name : String) : Argument :=
  if Text.endsWith ':' name then .bare (Argument.pathOf name) else .named (toString i) name

/-- The positions of an endpoint. -/
def arguments (identity : Identity) : ArgumentOptions :=
  (ArgumentOptions.ofParameters "Argument[self]" (identity.parameterNames.mapIdx argument)
    ).withReceiver "Argument[self]"

end Dataflow.MethodToken
