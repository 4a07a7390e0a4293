import Dataflow.Endpoint

/-!
# Models

A model says how data flows through an endpoint.

* `Variant`: which of the model forms, `none` included.
* `Model`: a model with the fields of its variant.
* `ModeledMethod`: an endpoint with one model.
-/

namespace Dataflow

/-! ## Variants and provenance -/

/-- The form of a model. -/
inductive Variant where
  | none
  | source
  | sink
  | summary
  | neutral
  | type
  deriving DecidableEq, Repr

namespace Variant

/-- The wire name of a variant. -/
def name : Variant → String
  | none => "none"
  | source => "source"
  | sink => "sink"
  | summary => "summary"
  | neutral => "neutral"
  | type => "type"

instance : Named Variant where
  all := [.none, .source, .sink, .summary, .neutral, .type]
  name := name

/-- The variant of a name. -/
def ofText (text : String) : Except UnknownName Variant :=
  Named.ofText "model variant" text

/-- The variants that model something. -/
def modeled : List Variant :=
  [.source, .sink, .summary, .neutral, .type]

end Variant

/-- Where a model comes from. -/
inductive Provenance where
  | manual
  | dfGenerated
  | dfManual
  | aiGenerated
  | aiManual
  deriving DecidableEq, Repr

namespace Provenance

/-- The wire name of a provenance. -/
def name : Provenance → String
  | manual => "manual"
  | dfGenerated => "df-generated"
  | dfManual => "df-manual"
  | aiGenerated => "ai-generated"
  | aiManual => "ai-manual"

instance : Named Provenance where
  all := [.manual, .dfGenerated, .dfManual, .aiGenerated, .aiManual]
  name := name

/-- The provenance a row column holds; a name that is not known counts as manual. -/
def ofColumn (text : String) : Provenance :=
  (Named.ofName? text).getD .manual

/-- A tool wrote the model and nobody reviewed it. -/
def isGenerated : Provenance → Bool
  | dfGenerated | aiGenerated => true
  | _ => false

end Provenance

/-! ## Models -/

/-- A model, with the fields of its variant. -/
inductive Model where
  | none
  | source (output kind : String) (provenance : Provenance)
  | sink (input kind : String) (provenance : Provenance)
  | summary (input output kind : String) (provenance : Provenance)
  | neutral (kind : String) (provenance : Provenance)
  | type (relatedType path : String)
  deriving DecidableEq, Repr

namespace Model

/-- The form of a model. -/
def variant : Model → Variant
  | none => .none
  | source .. => .source
  | sink .. => .sink
  | summary .. => .summary
  | neutral .. => .neutral
  | type .. => .type

/-- The kind of a model, absent for `none` and `type`. -/
def kind? : Model → Option String
  | source _ kind _ | sink _ kind _ | summary _ _ kind _ | neutral kind _ => some kind
  | none | type .. => Option.none

/-- The path where data enters. -/
def input? : Model → Option String
  | sink input _ _ | summary input _ _ _ => some input
  | _ => Option.none

/-- The path where data leaves. -/
def output? : Model → Option String
  | source output _ _ | summary _ output _ _ => some output
  | _ => Option.none

/-- The provenance of a model, absent for `none` and `type`. -/
def provenance? : Model → Option Provenance
  | source _ _ p | sink _ _ p | summary _ _ _ p | neutral _ p => some p
  | none | type .. => Option.none

/-- The model says something. -/
def isModeled (model : Model) : Bool :=
  model.variant != .none

theorem isModeled_iff {model : Model} : model.isModeled = true ↔ model ≠ .none := by
  cases model <;> simp [isModeled, variant]

/-- The model makes the analysis treat its method as supported. -/
def supportsMethod (model : Model) : Bool :=
  model.variant != .none && model.variant != .type

end Model

/-- An endpoint with one model. -/
structure ModeledMethod where
  identity : Identity
  model : Model
  deriving DecidableEq, Repr

/-- The signature of the endpoint. -/
def ModeledMethod.signature (modeled : ModeledMethod) : String :=
  modeled.identity.signature

/-- The variant of the model. -/
def ModeledMethod.variant (modeled : ModeledMethod) : Variant :=
  modeled.model.variant

end Dataflow
