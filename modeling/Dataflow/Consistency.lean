import Dataflow.Method

/-!
# Consistency of methods and models

The analysis marks the methods it supports. `notices` compares the marks with the models:

* a signature that has models and no method is missing;
* a method whose mark differs from what its models say is inconsistent. They say it is supported
  when one of them is neither `none` nor `type`.

Where methods share a signature, the last one counts.
-/

namespace Dataflow.Consistency

/-- A disagreement between methods and models. -/
inductive Notice where
  | missingMethod (signature : String)
  | inconsistentSupported (signature : String) (expectedSupported : Bool)
  deriving DecidableEq, Repr

/-- The signature a notice concerns. -/
def Notice.signature : Notice → String
  | missingMethod signature => signature
  | inconsistentSupported signature _ => signature

/-- The last method of a signature. -/
def methodOf? (methods : List Method) (signature : String) : Option Method :=
  methods.findRev? fun method => method.signature == signature

/-- The models say that their method is supported. -/
def expectedSupported (models : List ModeledMethod) : Bool :=
  models.any fun modeled => modeled.model.supportsMethod

/-- The disagreement about a signature, if there is one. -/
def notice? (methods : List Method) (signature : String) (models : List ModeledMethod) :
    Option Notice :=
  match methodOf? methods signature with
  | none => some (.missingMethod signature)
  | some method =>
    let expected := expectedSupported models
    if expected = method.supported then none
    else some (.inconsistentSupported signature expected)

/-- The disagreements, in the order of their signatures. -/
def notices (methods : List Method) (models : ModelIndex) : List Notice :=
  models.filterMap fun (signature, models) => notice? methods signature models

end Dataflow.Consistency
