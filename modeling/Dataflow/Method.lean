import Dataflow.Keyed
import Dataflow.Model

/-!
# Candidate methods

A method is an endpoint found by the analysis, with the library it belongs to, the places that use
it and whether the analysis already supports it.
-/

namespace Dataflow

/-- What kind of code a usage stands in. -/
inductive UsageClass where
  | source
  | test
  | generated
  | unknown
  deriving DecidableEq, Repr

namespace UsageClass

/-- The wire name of a usage class. -/
def name : UsageClass → String
  | source => "source"
  | test => "test"
  | generated => "generated"
  | unknown => "unknown"

instance : Named UsageClass where
  all := [.source, .test, .generated, .unknown]
  name := name

end UsageClass

/-- Where a usage stands. Lines and columns are 32-bit words. -/
structure Location where
  uri : String
  startLine : UInt32
  startColumn : UInt32
  endLine : UInt32
  endColumn : UInt32
  deriving DecidableEq, Repr

/-- A place that uses a method. -/
structure Usage where
  label : String
  location : Option Location
  classification : UsageClass
  deriving DecidableEq, Repr

/-- A method found by the analysis. -/
structure Method where
  identity : Identity
  library : String
  libraryVersion : Option String
  supported : Bool
  supportedType : Variant
  usages : List Usage
  endpointKind : Option String
  deriving DecidableEq, Repr

/-- The signature of a method. -/
def Method.signature (method : Method) : String :=
  method.identity.signature

/-- The number of places that use a method. -/
def Method.usageCount (method : Method) : Nat :=
  method.usages.length

/-- The models of each signature, in the order they were given. -/
abbrev ModelIndex := Keyed (List ModeledMethod)

/-- The models of a list, by signature. -/
def ModelIndex.ofList (models : List ModeledMethod) : ModelIndex :=
  Keyed.group ModeledMethod.signature models

end Dataflow
