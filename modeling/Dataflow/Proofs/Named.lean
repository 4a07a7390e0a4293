import Dataflow.Method
import Dataflow.Named
import Dataflow.Validation

/-!
# Names are read back

`LawfulNamed α`: the name of each value of `α` is read as this value, so the values are all listed
and their names are distinct.
-/

namespace Dataflow

/-- The name of each value is read back. -/
class LawfulNamed (α : Type) [Named α] : Prop where
  ofName?_name : ∀ value : α, Named.ofName? (Named.name value) = some value

/-- A text is read as a value iff it is the name of the value. -/
theorem Named.ofName?_eq_some_iff {α : Type} [Named α] [LawfulNamed α] {text : String} {value : α} :
    Named.ofName? text = some value ↔ Named.name value = text := by
  constructor
  · intro h
    exact beq_iff_eq.mp (List.find?_some (p := fun other => Named.name other == text) h)
  · rintro rfl
    exact LawfulNamed.ofName?_name value

instance : LawfulNamed EndpointType where
  ofName?_name value := by cases value <;> decide

instance : LawfulNamed Variant where
  ofName?_name value := by cases value <;> decide

instance : LawfulNamed Provenance where
  ofName?_name value := by cases value <;> decide

instance : LawfulNamed UsageClass where
  ofName?_name value := by cases value <;> decide

instance : LawfulNamed Validation.Rule where
  ofName?_name value := by cases value <;> decide

end Dataflow
