import Dataflow.Codec
import Dataflow.Proofs.AccessPath.Cut
import Dataflow.Proofs.Row

/-!
# Rows with a chain of members, read and written

Every model but `none` has a row with two columns for its endpoint; the other columns hold its
fields as they are. So reading and writing a row come down to the two columns.

* `position model`: what the path column of a model holds behind the method.
* `rowOf? column path model`: the row of a model, given the two columns.
* `Manual model`: the provenance of a model, if it has one, is `manual`.

Results:
* `fits_iff`: the rows that have the columns of a variant are the rows of models.
* `decodeChecked_eq_ok_iff`: the rows that are read as a given modeled method.
* `encode_eq_ok_iff`: the row that a modeled method is written as.
-/

namespace Dataflow

namespace MemberChain

/-- The position that the path column of a model holds behind the method. -/
def position : Model → String
  | .source output _ _ => output
  | .sink input _ _ => input
  | .type _ path => path
  | .summary .. | .neutral .. | .none => ""

/-- The row of a model, given the two columns of its endpoint. -/
def rowOf? (column path : String) : Model → Option Row
  | .source _ kind _ | .sink _ kind _ | .neutral kind _ =>
    some [.text column, .text path, .text kind]
  | .summary input output kind _ =>
    some [.text column, .text path, .text input, .text output, .text kind]
  | .type relatedType _ => some [.text relatedType, .text column, .text path]
  | .none => none

/-- The provenance of a model, if it has one, is `manual`. -/
def Manual (model : Model) : Prop :=
  ∀ provenance ∈ model.provenance?, provenance = .manual

/-- A row determines the two columns. -/
theorem rowOf?_inj {column path column' path' : String} {model : Model} {row : Row}
    (h : rowOf? column path model = some row) (h' : rowOf? column' path' model = some row) :
    column = column' ∧ path = path' := by
  rw [← h'] at h
  cases model <;> simp_all [rowOf?]

theorem exists_rowOf? {model : Model} (h : model ≠ .none) (column path : String) :
    ∃ row, rowOf? column path model = some row := by
  cases model with
  | none => exact absurd rfl h
  | _ => exact ⟨_, rfl⟩

/-! ## Reading -/

theorem parseMethod_eq_ok_iff {column path : String} {parsed : Parsed} :
    parseMethod column path = .ok parsed ↔
      parse column path = parsed ∧ (parse column path).suffix = "" := by
  unfold parseMethod
  simp only
  split_ifs with h
  · simp [h]
  · simp [h]

theorem map_parseMethod_eq_ok_iff {column path : String} {f : Parsed → ModeledMethod}
    {modeled : ModeledMethod} :
    (parseMethod column path).map f = .ok modeled ↔
      f (parse column path) = modeled ∧ (parse column path).suffix = "" := by
  cases hparse : parseMethod column path with
  | ok parsed =>
    obtain ⟨rfl, hsuffix⟩ := parseMethod_eq_ok_iff.mp hparse
    simp [Except.map, hsuffix]
  | error error =>
    have hsuffix : (parse column path).suffix ≠ "" := fun h => by
      rw [parseMethod_eq_ok_iff.mpr ⟨rfl, h⟩] at hparse
      exact absurd hparse (by simp)
    simp [Except.map, hsuffix]

/-- **The rows that fit a variant** are the rows of its models, with any texts in the two columns of
the endpoint. -/
theorem fits_iff {variant : Variant} {row : Row} :
    Ecosystem.python.Fits variant row ↔
      ∃ column path model, model.variant = variant ∧ rowOf? column path model = some row := by
  constructor
  · rintro ⟨columns, hcolumns, hshape⟩
    cases variant with
    | none => exact absurd hcolumns (by simp [Ecosystem.columns?, columns?])
    | source =>
      obtain rfl := Option.some.inj hcolumns
      obtain ⟨column, path, kind, rfl⟩ := three_texts hshape
      exact ⟨column, path, .source "" kind .manual, rfl, rfl⟩
    | sink =>
      obtain rfl := Option.some.inj hcolumns
      obtain ⟨column, path, kind, rfl⟩ := three_texts hshape
      exact ⟨column, path, .sink "" kind .manual, rfl, rfl⟩
    | summary =>
      obtain rfl := Option.some.inj hcolumns
      obtain ⟨column, path, input, output, kind, rfl⟩ := five_texts hshape
      exact ⟨column, path, .summary input output kind .manual, rfl, rfl⟩
    | neutral =>
      obtain rfl := Option.some.inj hcolumns
      obtain ⟨column, path, kind, rfl⟩ := three_texts hshape
      exact ⟨column, path, .neutral kind .manual, rfl, rfl⟩
    | type =>
      obtain rfl := Option.some.inj hcolumns
      obtain ⟨relatedType, column, path, rfl⟩ := three_texts hshape
      exact ⟨column, path, .type relatedType "", rfl, rfl⟩
  · rintro ⟨column, path, model, rfl, hrow⟩
    cases model with
    | none => exact absurd hrow (by simp [rowOf?])
    | _ =>
      obtain rfl := Option.some.inj hrow
      exact ⟨_, rfl, by simp [ColumnKind.accepts]⟩

/-- **Reading a row**: the endpoint and the position come from its two columns. -/
theorem decodeChecked_eq_ok_iff {variant : Variant} {row : Row} {modeled : ModeledMethod} :
    Ecosystem.python.decodeChecked variant row = .ok modeled ↔
      modeled.variant = variant ∧ Manual modeled.model ∧
        ∃ column path, rowOf? column path modeled.model = some row ∧
          (parse column path).identity = modeled.identity ∧
          (parse column path).suffix = position modeled.model := by
  rw [Ecosystem.decodeChecked_eq_ok_iff]
  constructor
  · rintro ⟨hfits, hdecode⟩
    obtain ⟨column, path, model, rfl, hrow⟩ := fits_iff.mp hfits
    cases model with
    | none => exact absurd hrow (by simp [rowOf?])
    | summary input output kind provenance =>
      obtain rfl := Option.some.inj hrow
      obtain ⟨rfl, hsuffix⟩ := map_parseMethod_eq_ok_iff.mp hdecode
      exact ⟨rfl, by simp [Manual, Model.provenance?], column, path, rfl, rfl, hsuffix⟩
    | neutral kind provenance =>
      obtain rfl := Option.some.inj hrow
      obtain ⟨rfl, hsuffix⟩ := map_parseMethod_eq_ok_iff.mp hdecode
      exact ⟨rfl, by simp [Manual, Model.provenance?], column, path, rfl, rfl, hsuffix⟩
    | _ =>
      obtain rfl := Option.some.inj hrow
      obtain rfl := Except.ok.inj hdecode
      exact ⟨rfl, by simp [Manual, Model.provenance?], column, path, rfl, rfl, rfl⟩
  · obtain ⟨identity, model⟩ := modeled
    rintro ⟨rfl, hmanual, column, path, hrow, rfl, hsuffix⟩
    refine ⟨fits_iff.mpr ⟨column, path, model, rfl, hrow⟩, ?_⟩
    cases model with
    | none => exact absurd hrow (by simp [rowOf?])
    | source output kind provenance =>
      obtain rfl := Option.some.inj hrow
      obtain rfl := hmanual provenance rfl
      obtain rfl : _ = output := hsuffix
      rfl
    | sink input kind provenance =>
      obtain rfl := Option.some.inj hrow
      obtain rfl := hmanual provenance rfl
      obtain rfl : _ = input := hsuffix
      rfl
    | summary input output kind provenance =>
      obtain rfl := Option.some.inj hrow
      obtain rfl := hmanual provenance rfl
      exact map_parseMethod_eq_ok_iff.mpr ⟨rfl, hsuffix⟩
    | neutral kind provenance =>
      obtain rfl := Option.some.inj hrow
      obtain rfl := hmanual provenance rfl
      exact map_parseMethod_eq_ok_iff.mpr ⟨rfl, hsuffix⟩
    | type relatedType path =>
      obtain rfl := Option.some.inj hrow
      obtain rfl : _ = path := hsuffix
      rfl

/-! ## Writing -/

/-- **Writing a row**: every model but `none` has one. -/
theorem encode_eq_ok_iff {modeled : ModeledMethod} {row : Row} :
    Ecosystem.python.encode modeled = .ok row ↔
      rowOf?
        (typeColumn modeled.identity.package modeled.identity.typeName
          modeled.identity.endpointType)
        (pathOf modeled.identity.method (position modeled.model)) modeled.model = some row := by
  obtain ⟨identity, model⟩ := modeled
  unfold Ecosystem.encode
  simp only
  cases model <;> simp [encode?, rowOf?, position, identityColumn, pathOf, methodPath,
    AccessPath.append_empty_right]

end MemberChain

end Dataflow
