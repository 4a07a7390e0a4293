import Dataflow.Proofs.MemberChain.Rows
import Dataflow.Proofs.MethodToken.Path

/-!
# Rows with a method token, read and written

These rows have the columns that rows with a chain of members have: one for the type, one for the
path and one for each field, the provenance apart. So here too `rowOf?` is the row of a model, and
`position` what stands behind the method in its path. Nothing but the path column is taken apart.

* `withPosition position model`: a model as it is read from a row, where its path ends with
  `position`.

Results:
* `fits_iff`: the rows that have the columns of a variant are the rows of models.
* `decode_rowOf?`: what is read from the row of a model, whatever the two columns hold.
* `encode_eq_ok_iff`: the row that a modeled method is written as.
-/

namespace Dataflow.MethodToken

open MemberChain (rowOf? position Manual)

/-- A model with another position, and with the provenance of a row that has no column for it. -/
def withPosition (position : String) : Model → Model
  | .source _ kind _ => .source position kind .manual
  | .sink _ kind _ => .sink position kind .manual
  | .summary input output kind _ => .summary input output kind .manual
  | .neutral kind _ => .neutral kind .manual
  | .type relatedType _ => .type relatedType position
  | .none => .none

/-- A model that was read has no other provenance. -/
theorem manual_withPosition (position : String) (model : Model) :
    Manual (withPosition position model) := by
  cases model <;> simp [withPosition, Manual, Model.provenance?]

theorem withPosition_position {model : Model} (h : Manual model) :
    withPosition (position model) model = model := by
  cases model with
  | none => rfl
  | type relatedType path => rfl
  | source output kind provenance => rw [h provenance rfl]; rfl
  | sink input kind provenance => rw [h provenance rfl]; rfl
  | summary input output kind provenance => rw [h provenance rfl]; rfl
  | neutral kind provenance => rw [h provenance rfl]; rfl

theorem withPosition_withPosition (position position' : String) (model : Model) :
    withPosition position (withPosition position' model) = withPosition position model := by
  cases model <;> rfl

/-- A row shows neither the position of its model, which is in the path, nor the provenance. -/
theorem rowOf?_withPosition (column path position : String) (model : Model) :
    rowOf? column path (withPosition position model) = rowOf? column path model := by
  cases model <;> rfl

/-! ## Reading -/

/-- **The rows that fit a variant** are the rows of its models. -/
theorem fits_iff {variant : Variant} {row : Row} :
    Ecosystem.ruby.Fits variant row ↔
      ∃ column path model, model.variant = variant ∧ rowOf? column path model = some row := by
  have hcolumns : Ecosystem.ruby.columns? = Ecosystem.python.columns? := by
    funext variant
    cases variant <;> rfl
  rw [← MemberChain.fits_iff, Ecosystem.Fits, Ecosystem.Fits, hcolumns]

/-- **Reading a row**: the path column gives the method and the position. -/
theorem decode_rowOf? {column path : String} {model : Model} {row : Row}
    (h : rowOf? column path model = some row) :
    Ecosystem.ruby.decode model.variant row =
      .ok ⟨identityOf column (splitPath path).1, withPosition (splitPath path).2 model⟩ := by
  cases model with
  | none => exact absurd h (by simp [rowOf?])
  | _ =>
    obtain rfl := Option.some.inj h
    rfl

/-- Rows of models have their columns, so they are read by the checked reader too. -/
theorem decodeChecked_rowOf? {column path : String} {model : Model} {row : Row}
    (h : rowOf? column path model = some row) :
    Ecosystem.ruby.decodeChecked model.variant row =
      .ok ⟨identityOf column (splitPath path).1, withPosition (splitPath path).2 model⟩ := by
  have hfits : Ecosystem.ruby.Fits model.variant row :=
    fits_iff.mpr ⟨column, path, model, rfl, h⟩
  rw [Ecosystem.decodeChecked_of_fits hfits, decode_rowOf? h]

/-! ## Writing -/

/-- **Writing a row**: every model but `none` has one. -/
theorem encode_eq_ok_iff {identity : Identity} {model : Model} {row : Row} :
    Ecosystem.ruby.encode ⟨identity, model⟩ = .ok row ↔
      rowOf? identity.typeName (pathOf identity.method (position model)) model = some row := by
  unfold Ecosystem.encode
  simp only
  cases model <;> simp [encode?, rowOf?, position, pathOf, AccessPath.append_empty_right]

end Dataflow.MethodToken
