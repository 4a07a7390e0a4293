import Dataflow.Endpoint

/-!
# Argument positions

The positions of an endpoint that a model can name: the access path of each and a label for display.
-/

namespace Dataflow

/-- An argument position. -/
structure Argument where
  path : String
  label : String
  deriving DecidableEq, Repr

namespace Argument

/-- A position whose label is its path. -/
def bare (path : String) : Argument :=
  ⟨path, path⟩

/-- The path of the position with the given content between the brackets. -/
def pathOf (content : String) : String :=
  "Argument[" ++ content ++ "]"

/-- A position labelled with its path and a name. -/
def named (content name : String) : Argument :=
  ⟨pathOf content, pathOf content ++ ": " ++ name⟩

end Argument

/-- The positions of an endpoint and the path to choose first. -/
structure ArgumentOptions where
  options : List Argument
  defaultPath : String
  deriving DecidableEq, Repr

namespace ArgumentOptions

/-- The positions of an endpoint's parameters. The first one is chosen, or the receiver if there is
none. -/
def ofParameters (receiver : String) (arguments : List Argument) : ArgumentOptions :=
  ⟨arguments, (arguments.head?.map Argument.path).getD receiver⟩

/-- Offer the receiver in front of the other positions. -/
def withReceiver (receiver : String) (options : ArgumentOptions) : ArgumentOptions :=
  { options with options := .bare receiver :: options.options }

end ArgumentOptions

end Dataflow
