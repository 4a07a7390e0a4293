import Dataflow.Model

/-!
# Validation of the models of a method

* A model is a duplicate when an earlier one says the same; where the models come from does not
  count.
* A neutral model conflicts when its kind is the name of a variant that some model has. Only the
  first neutral model of a kind is reported.

`findings models` has the findings in the order of the models they concern.
-/

namespace Dataflow.Validation

/-- The rule a finding comes from. -/
inductive Rule where
  | duplicate
  | conflict
  deriving DecidableEq, Repr

/-- The wire name of a rule. -/
def Rule.name : Rule → String
  | duplicate => "duplicate"
  | conflict => "conflict"

instance : Named Rule where
  all := [.duplicate, .conflict]
  name := Rule.name

/-- A finding about the model at an index, with the texts shown for it. -/
structure Finding where
  index : Nat
  rule : Rule
  title : String
  message : String
  actionText : String
  deriving DecidableEq, Repr

/-- The finding that a model says what an earlier one says. -/
def Finding.ofDuplicate (index : Nat) : Finding :=
  ⟨index, .duplicate, "Duplicated classification",
    "This method has two identical or conflicting classifications.",
    "Modify or remove the duplicated classification."⟩

/-- The finding that a neutral model stands beside a model of the variant it denies. -/
def Finding.ofConflict (index : Nat) (kind : String) : Finding :=
  ⟨index, .conflict, "Conflicting classification",
    "This method has a neutral " ++ kind ++
      " classification, which conflicts with other " ++ kind ++ " classifications.",
    "Modify or remove the neutral classification."⟩

/-! ## Duplicates -/

/-- What decides whether two models say the same. -/
structure Content where
  variant : Variant
  kind : Option String
  input : Option String
  output : Option String
  typeRelation : Option (String × String)
  deriving DecidableEq, Repr

/-- The content of a model: all of it but the provenance. -/
def Content.ofModel (model : Model) : Content where
  variant := model.variant
  kind := model.kind?
  input := model.input?
  output := model.output?
  typeRelation :=
    match model with
    | .type relatedType path => some (relatedType, path)
    | _ => none

/-- The duplicates among models from `index` on, when the contents `seen` stand before them. -/
def duplicatesFrom : Nat → List Content → List Model → List Finding
  | _, _, [] => []
  | index, seen, model :: models =>
    let content := Content.ofModel model
    if !model.isModeled then duplicatesFrom (index + 1) seen models
    else if content ∈ seen then .ofDuplicate index :: duplicatesFrom (index + 1) seen models
    else duplicatesFrom (index + 1) (content :: seen) models

/-! ## Conflicts -/

/-- A neutral model of this kind denies a variant among those given. -/
def denies (variants : List Variant) (kind : String) : Bool :=
  match (Named.ofName? kind : Option Variant) with
  | some .none | some .neutral | none => false
  | some variant => variants.contains variant

/-- The conflicts among models from `index` on, when conflicts of the kinds `seen` were reported. -/
def conflictsFrom (variants : List Variant) : Nat → List String → List Model → List Finding
  | _, _, [] => []
  | index, seen, .neutral kind _ :: models =>
    if denies variants kind && !seen.contains kind then
      .ofConflict index kind :: conflictsFrom variants (index + 1) (kind :: seen) models
    else conflictsFrom variants (index + 1) seen models
  | index, seen, _ :: models => conflictsFrom variants (index + 1) seen models

/-! ## Findings -/

/-- The findings about models, in their order. -/
def findingsOf (models : List Model) : List Finding :=
  (duplicatesFrom 0 [] models ++ conflictsFrom (models.map Model.variant) 0 [] models).mergeSort
    fun a b => a.index ≤ b.index

/-- The findings about the models of a method. -/
def findings (models : List ModeledMethod) : List Finding :=
  findingsOf (models.map ModeledMethod.model)

end Dataflow.Validation
