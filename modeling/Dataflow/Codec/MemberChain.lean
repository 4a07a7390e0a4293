import Dataflow.AccessPath
import Dataflow.Argument
import Dataflow.Row

/-!
# Rows with a chain of members

Python rows name an endpoint by a type column `package.Type` and a path column that starts with a
chain of tokens `Member[name]` and `Instance`; the rest of the path is the position the model speaks
of. A type that ends with `!` is the class itself and not an instance of it.

* `Chain.ofTokens`: the chain at the start of a path, the tokens after it and what was met on the
  way.
* `parse`: the endpoint a type column and a path name, and the rest of the path.
* `encode?`, `decode`: between modeled methods and rows.
-/

namespace Dataflow.MemberChain

open AccessPath (texts join append)

/-! ## Chains -/

/-- The name of a token `Member[name]`. The name is not empty and has no line feed. -/
def memberName? (token : String) : Option String :=
  (Text.bracketed? "Member" token).filter fun name => name != "" && !name.toList.contains '\n'

/-- The chain at the start of a path. -/
structure Chain where
  /-- The member names in order. -/
  names : List String
  /-- A token `Instance` stands in the chain. -/
  viaInstance : Bool
  /-- The tokens after the chain. -/
  rest : List String
  deriving DecidableEq, Repr

/-- The chain of a token list: it ends at the first token of another form. -/
def Chain.ofTokens : List String → Chain
  | [] => ⟨[], false, []⟩
  | token :: tokens =>
    match memberName? token with
    | some name =>
      let chain := ofTokens tokens
      { chain with names := name :: chain.names }
    | none =>
      if token = "Instance" then { ofTokens tokens with viaInstance := true }
      else ⟨[], false, token :: tokens⟩

/-! ## Endpoints -/

/-- What a type column and a path name. -/
structure Parsed where
  package : String
  typeName : String
  method : String
  endpointType : EndpointType
  suffix : String
  deriving DecidableEq, Repr

/-- The package and the type of a type column, which are separated by its first dot. -/
def splitType (column : String) : String × String :=
  Text.splitFirst '.' column

/-- The type without its class marker. -/
def bareType (short : String) : String :=
  (Text.dropLast? '!' short).getD short

/-- The endpoint a type column and a path name. The last member is the method, the others belong to
the type. -/
def parse (column path : String) : Parsed :=
  let (package, short) := splitType column
  let chain := Chain.ofTokens (texts path)
  let ofInstance := short != "" && !Text.endsWith '!' short
  { package := package
    typeName := append (bareType short) (join chain.names.dropLast)
    method := chain.names.getLast?.getD ""
    endpointType := if path = "" || chain.viaInstance || ofInstance then .method else .function
    suffix := join chain.rest }

/-- The type column of an endpoint. Only a function reached through a named type of a package gets
the class marker. -/
def typeColumn (package typeName : String) (endpointType : EndpointType) : String :=
  if package ≠ "" ∧ typeName ≠ "" then
    package ++ "." ++ typeName ++ (if endpointType = .function then "!" else "")
  else package ++ typeName

/-- The path of a method, empty without one. -/
def methodPath (method : String) : String :=
  if method = "" then "" else "Member[" ++ method ++ "]"

/-- The path of a position in a method. -/
def pathOf (method position : String) : String :=
  append (methodPath method) position

/-- The signature of an endpoint. -/
def signature (identity : Identity) : String :=
  identity.typeName ++ "#" ++ identity.method

/-- The endpoint of parsed columns. -/
def Parsed.identity (parsed : Parsed) : Identity :=
  let identity : Identity :=
    ⟨parsed.package, parsed.typeName, parsed.method, "", parsed.endpointType, ""⟩
  { identity with signature := signature identity }

/-- The endpoint types a variant may be attached to. -/
def endpointTypes : Variant → List EndpointType
  | .source | .sink | .summary => [.method, .function, .constructor, .classMethod, .staticMethod]
  | .neutral | .type =>
    [.function, .method, .constructor, .classObject, .moduleObject, .classMethod, .staticMethod]
  | .none => []

/-- What an endpoint listed with a kind is. Without a known kind, a first parameter `self` tells a
method from a function. -/
def endpointTypeOf (identity : Identity) (kind : Option String) : EndpointType :=
  match kind with
  | some "Function" => .function
  | some "InstanceMethod" => .method
  | some "ClassMethod" => .classMethod
  | some "StaticMethod" => .staticMethod
  | some "InitMethod" => .constructor
  | some "Class" => .classObject
  | _ =>
    if Text.startsWith "(self," identity.parameters || identity.parameters == "(self)" then .method
    else .function

/-! ## Rows -/

/-- The columns of a variant. -/
def columns? : Variant → Option (List ColumnKind)
  | .source | .sink | .neutral | .type => some [.text, .text, .text]
  | .summary => some [.text, .text, .text, .text, .text]
  | .none => none

/-- The type column of an endpoint. -/
def identityColumn (identity : Identity) : Scalar :=
  .text (typeColumn identity.package identity.typeName identity.endpointType)

/-- The row of a modeled method. -/
def encode? (identity : Identity) : Model → Option Row
  | .source output kind _ =>
    some [identityColumn identity, .text (pathOf identity.method output), .text kind]
  | .sink input kind _ =>
    some [identityColumn identity, .text (pathOf identity.method input), .text kind]
  | .summary input output kind _ =>
    some [identityColumn identity, .text (methodPath identity.method), .text input, .text output,
      .text kind]
  | .neutral kind _ =>
    some [identityColumn identity, .text (methodPath identity.method), .text kind]
  | .type relatedType path =>
    some [.text relatedType, identityColumn identity, .text (pathOf identity.method path)]
  | .none => none

/-- The endpoint of columns that may name a method only. -/
def parseMethod (column path : String) : Except RowError Parsed :=
  let parsed := parse column path
  if parsed.suffix = "" then .ok parsed else .error (.methodPathExpected path parsed.suffix)

/-- The modeled method of a row, given by the texts of its columns. -/
def decode (cell : Nat → String) : Variant → Except RowError ModeledMethod
  | .source =>
    let parsed := parse (cell 0) (cell 1)
    .ok ⟨parsed.identity, .source parsed.suffix (cell 2) .manual⟩
  | .sink =>
    let parsed := parse (cell 0) (cell 1)
    .ok ⟨parsed.identity, .sink parsed.suffix (cell 2) .manual⟩
  | .summary =>
    (parseMethod (cell 0) (cell 1)).map fun parsed =>
      ⟨parsed.identity, .summary (cell 2) (cell 3) (cell 4) .manual⟩
  | .neutral =>
    (parseMethod (cell 0) (cell 1)).map fun parsed =>
      ⟨parsed.identity, .neutral (cell 2) .manual⟩
  | .type =>
    let parsed := parse (cell 1) (cell 2)
    .ok ⟨parsed.identity, .type (cell 0) parsed.suffix⟩
  | .none => .error (.unsupportedVariant .python .none)

/-! ## Arguments -/

/-- The first parameter of the endpoint is its receiver. -/
def hasReceiver : EndpointType → Bool
  | .method | .classMethod => true
  | _ => false

/-- The position of a parameter that `i` others precede, the receiver not counted. A colon marks one
that is passed by name only, a slash one that is passed by number only. -/
def argument (i : Nat) (name : String) : Argument :=
  match Text.dropLast? ':' name, Text.dropLast? '/' name with
  | some bare, _ => .named name bare
  | none, some bare => .named (toString i) bare
  | none, none => .named (toString i ++ "," ++ name ++ ":") name

/-- The positions of parameters, the first of which may be the receiver. -/
def argumentList (receiver : Bool) : List String → List Argument
  | [] => []
  | name :: names =>
    if receiver then .named "self" name :: names.mapIdx argument
    else (name :: names).mapIdx argument

/-- The positions of an endpoint. -/
def arguments (identity : Identity) : ArgumentOptions :=
  ArgumentOptions.ofParameters "Argument[self]"
    (argumentList (hasReceiver identity.endpointType) identity.parameterNames)

end Dataflow.MemberChain
