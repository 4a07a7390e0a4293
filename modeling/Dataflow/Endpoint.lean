import Dataflow.Named
import Dataflow.Text.Ends

/-!
# Endpoints

An endpoint is a method, function or type of a library. Its identity names it; its signature is the
key by which the methods and models of one endpoint are brought together.

* `Identity`: the names, the endpoint type and the signature.
* `parameterNames`: the parts of a parameter list such as `(self,url)`.
-/

namespace Dataflow

/-- What an endpoint is. -/
inductive EndpointType where
  | function
  | method
  | constructor
  | classObject
  | moduleObject
  | classMethod
  | staticMethod
  deriving DecidableEq, Repr

namespace EndpointType

/-- The wire name of an endpoint type. -/
def name : EndpointType → String
  | function => "Function"
  | method => "Method"
  | constructor => "Constructor"
  | classObject => "Class"
  | moduleObject => "Module"
  | classMethod => "ClassMethod"
  | staticMethod => "StaticMethod"

instance : Named EndpointType where
  all :=
    [.function, .method, .constructor, .classObject, .moduleObject, .classMethod, .staticMethod]
  name := name

end EndpointType

/-- The names of an endpoint. -/
structure Identity where
  package : String
  typeName : String
  method : String
  parameters : String
  endpointType : EndpointType
  signature : String
  deriving DecidableEq, Repr

/-- A parameter list without its parentheses. A list that lacks either one is left alone. -/
def withoutParentheses (parameters : String) : String :=
  ((Text.dropFirst? '(' parameters).bind (Text.dropLast? ')')).getD parameters

/-- The parameters of a list, which are separated by commas. The empty list has none. -/
def parameterNames (parameters : String) : List String :=
  let inner := withoutParentheses parameters
  if inner = "" then [] else Text.splitOn ',' inner

/-- The parameters of an endpoint. -/
def Identity.parameterNames (identity : Identity) : List String :=
  Dataflow.parameterNames identity.parameters

end Dataflow
