import Dataflow.Consistency
import Dataflow.Display
import Dataflow.Validation

/-!
# Editing sessions

A session holds methods and the work on them. `Session.apply` takes one step of the user or of
automatic modeling.
-/

namespace Dataflow

/-- Methods, their models and the state of the work on them. -/
structure Session where
  methods : List Method
  progress : Display.Progress

namespace Session

/-- A step in a session. -/
inductive Step where
  /-- Add a model under its signature. -/
  | add (modeled : ModeledMethod)
  /-- Drop the models of a signature. -/
  | clear (signature : String)
  /-- Note unsaved edits. -/
  | modify (signature : String)
  /-- Save all edits. -/
  | save
  /-- Note that automatic modeling has seen a signature. -/
  | auto (signature : String)
  /-- Mark the methods of a signature as supported or not. -/
  | support (signature : String) (supported : Bool)

/-- A session in which nothing was edited. -/
def start (methods : List Method) (models : List ModeledMethod) : Session :=
  ⟨methods, ModelIndex.ofList models, [], []⟩

/-- A session with other models. -/
def withModels (session : Session) (models : ModelIndex) : Session :=
  { session with progress.models := models }

/-- The session after a step. -/
def apply (session : Session) : Step → Session
  | .add modeled =>
    session.withModels <|
      session.progress.models.update modeled.signature fun models => models.getD [] ++ [modeled]
  | .clear signature => session.withModels (session.progress.models.erase signature)
  | .modify signature =>
    { session with progress.unsaved := signature :: session.progress.unsaved }
  | .save => { session with progress.unsaved := [] }
  | .auto signature =>
    { session with progress.autoProcessed := signature :: session.progress.autoProcessed }
  | .support signature supported =>
    { session with
      methods := session.methods.map fun method =>
        if method.signature = signature then { method with supported } else method }

/-- The findings about the models of each signature. -/
def findings (models : ModelIndex) : Keyed (List Validation.Finding) :=
  models.map fun (signature, models) => (signature, Validation.findings models)

/-- The signatures of the open methods. -/
def openSignatures (session : Session) : List String :=
  (session.methods.filter session.progress.isOpen).map Method.signature

end Session

end Dataflow
