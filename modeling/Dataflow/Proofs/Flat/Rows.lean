import Dataflow.Proofs.Row

/-!
# Flat rows, read and written

A flat row holds every field of a modeled method as it is, but for three columns: whether subtypes
are included, the extension and the name of the provenance. The endpoint type and the signature have
no column.

* `rowOf? subtypes ext provenance identity model`: the row of a model, given these three columns.
* `asMethod identity`: the endpoint of the same names that is read from a row.
* `withProvenance provenance model`: the model with another provenance.

Results:
* `fits_iff`: the rows that have the columns of a variant are the rows of models.
* `decode_rowOf?`: what is read from a row, whatever the three columns hold.
* `encode_withProvenance`: what the three columns are written as.
-/

namespace Dataflow

/-! ## Provenance columns -/

namespace Provenance

/-- The text that a provenance column is written with after it was read. -/
def rewritten (text : String) : String :=
  if text ∈ (Named.all : List Provenance).map Provenance.name then text else "manual"

theorem ofColumn_name (provenance : Provenance) : ofColumn provenance.name = provenance := by
  cases provenance <;> decide

/-- A provenance column is written as it was read, unless its name is not known. -/
theorem name_ofColumn (text : String) : (ofColumn text).name = rewritten text := by
  unfold rewritten
  split_ifs with h
  · obtain ⟨provenance, -, rfl⟩ := List.mem_map.mp h
    rw [ofColumn_name]
  · have hunknown : @Named.ofName? Provenance _ text = none := by
      refine List.find?_eq_none.mpr fun provenance hmem hname => h ?_
      exact List.mem_map.mpr ⟨provenance, hmem, beq_iff_eq.mp hname⟩
    rw [ofColumn, hunknown]
    rfl

end Provenance

namespace Flat

/-! ## Rows of models -/

/-- The row of a model, given the columns for subtypes, extension and provenance. -/
def rowOf? (subtypes : Bool) (ext provenance : String) (identity : Identity) : Model → Option Row
  | .source position kind _ | .sink position kind _ =>
    some [.text identity.package, .text identity.typeName, .boolean subtypes,
      .text identity.method, .text identity.parameters, .text ext, .text position, .text kind,
      .text provenance]
  | .summary input output kind _ =>
    some [.text identity.package, .text identity.typeName, .boolean subtypes,
      .text identity.method, .text identity.parameters, .text ext, .text input, .text output,
      .text kind, .text provenance]
  | .neutral kind _ =>
    some [.text identity.package, .text identity.typeName, .text identity.method,
      .text identity.parameters, .text kind, .text provenance]
  | .type .. | .none => none

/-- The method of the names of an endpoint. -/
def asMethod (identity : Identity) : Identity :=
  { identity with endpointType := .method, signature := signature identity }

/-- A model with another provenance. -/
def withProvenance (provenance : Provenance) : Model → Model
  | .source output kind _ => .source output kind provenance
  | .sink input kind _ => .sink input kind provenance
  | .summary input output kind _ => .summary input output kind provenance
  | .neutral kind _ => .neutral kind provenance
  | .type relatedType path => .type relatedType path
  | .none => .none

theorem asMethod_eq_self_iff {identity : Identity} :
    asMethod identity = identity ↔
      identity.endpointType = .method ∧ identity.signature = signature identity := by
  obtain ⟨package, typeName, method, parameters, endpointType, sig⟩ := identity
  simp only [asMethod, Identity.mk.injEq, true_and]
  exact and_congr eq_comm eq_comm

/-- Neither the endpoint type nor the signature is in a row. -/
theorem rowOf?_asMethod (subtypes : Bool) (ext provenance : String) (identity : Identity)
    (model : Model) :
    rowOf? subtypes ext provenance (asMethod identity) model =
      rowOf? subtypes ext provenance identity model := by
  cases model <;> rfl

/-- A model that flat rows hold has a provenance and a row. -/
theorem exists_rowOf? {model : Model}
    (h : model.variant ∈ [Variant.source, .sink, .summary, .neutral]) (identity : Identity) :
    ∃ provenance row, withProvenance provenance model = model ∧
      rowOf? true "" provenance.name identity model = some row := by
  cases model with
  | source output kind provenance => exact ⟨provenance, _, rfl, rfl⟩
  | sink input kind provenance => exact ⟨provenance, _, rfl, rfl⟩
  | summary input output kind provenance => exact ⟨provenance, _, rfl, rfl⟩
  | neutral kind provenance => exact ⟨provenance, _, rfl, rfl⟩
  | type relatedType path => exact absurd h (by simp [Model.variant])
  | none => exact absurd h (by simp [Model.variant])

/-- The first columns of a row that has a column for subtypes. -/
theorem endpoint_cells {kinds : List ColumnKind} {row : Row}
    (h : List.Forall₂ (fun kind value => kind.accepts value = true)
      (.text :: .text :: .boolean :: .text :: .text :: .text :: kinds) row) :
    ∃ package typeName subtypes method parameters ext rest,
      row = .text package :: .text typeName :: .boolean subtypes :: .text method ::
        .text parameters :: .text ext :: rest ∧
      List.Forall₂ (fun kind value => kind.accepts value = true) kinds rest := by
  obtain _ | ⟨hpackage, _ | ⟨htype, _ | ⟨hsubtypes, _ | ⟨hmethod, _ | ⟨hparameters,
    _ | ⟨hext, hrest⟩⟩⟩⟩⟩⟩ := h
  obtain ⟨package, rfl⟩ := accepts_text_iff.mp hpackage
  obtain ⟨typeName, rfl⟩ := accepts_text_iff.mp htype
  obtain ⟨subtypes, rfl⟩ := accepts_boolean_iff.mp hsubtypes
  obtain ⟨method, rfl⟩ := accepts_text_iff.mp hmethod
  obtain ⟨parameters, rfl⟩ := accepts_text_iff.mp hparameters
  obtain ⟨ext, rfl⟩ := accepts_text_iff.mp hext
  exact ⟨package, typeName, subtypes, method, parameters, ext, _, rfl, hrest⟩

section

variable {ecosystem : Ecosystem} (hflat : ecosystem = .java ∨ ecosystem = .csharp)

include hflat

/-! ## Reading -/

/-- **The rows that fit a variant** are the rows of its models, with any values in the three columns
that are not kept. -/
theorem fits_iff {variant : Variant} {row : Row} :
    ecosystem.Fits variant row ↔
      ∃ subtypes ext provenance identity model, model.variant = variant ∧
        rowOf? subtypes ext provenance identity model = some row := by
  have hcolumns : ecosystem.columns? = columns? := by rcases hflat with rfl | rfl <;> rfl
  unfold Ecosystem.Fits
  rw [hcolumns]
  constructor
  · rintro ⟨columns, hvariant, hshape⟩
    cases variant with
    | none => exact absurd hvariant (by simp [columns?])
    | type => exact absurd hvariant (by simp [columns?])
    | source =>
      obtain rfl := Option.some.inj hvariant
      obtain ⟨package, typeName, subtypes, method, parameters, ext, rest, rfl, hrest⟩ :=
        endpoint_cells hshape
      obtain ⟨output, kind, provenance, rfl⟩ := three_texts hrest
      exact ⟨subtypes, ext, provenance, ⟨package, typeName, method, parameters, .method, ""⟩,
        .source output kind .manual, rfl, rfl⟩
    | sink =>
      obtain rfl := Option.some.inj hvariant
      obtain ⟨package, typeName, subtypes, method, parameters, ext, rest, rfl, hrest⟩ :=
        endpoint_cells hshape
      obtain ⟨input, kind, provenance, rfl⟩ := three_texts hrest
      exact ⟨subtypes, ext, provenance, ⟨package, typeName, method, parameters, .method, ""⟩,
        .sink input kind .manual, rfl, rfl⟩
    | summary =>
      obtain rfl := Option.some.inj hvariant
      obtain ⟨package, typeName, subtypes, method, parameters, ext, rest, rfl, hrest⟩ :=
        endpoint_cells hshape
      obtain ⟨cells, hlen, rfl⟩ := (forall₂_text_iff (n := 4)).mp hrest
      match cells, hlen with
      | [input, output, kind, provenance], _ =>
        exact ⟨subtypes, ext, provenance, ⟨package, typeName, method, parameters, .method, ""⟩,
          .summary input output kind .manual, rfl, rfl⟩
    | neutral =>
      obtain rfl := Option.some.inj hvariant
      obtain ⟨cells, hlen, rfl⟩ := (forall₂_text_iff (n := 6)).mp hshape
      match cells, hlen with
      | [package, typeName, method, parameters, kind, provenance], _ =>
        exact ⟨true, "", provenance, ⟨package, typeName, method, parameters, .method, ""⟩,
          .neutral kind .manual, rfl, rfl⟩
  · rintro ⟨subtypes, ext, provenance, identity, model, rfl, hrow⟩
    cases model with
    | none => exact absurd hrow (by simp [rowOf?])
    | type relatedType path => exact absurd hrow (by simp [rowOf?])
    | _ =>
      obtain rfl := Option.some.inj hrow
      exact ⟨_, rfl, by simp [ColumnKind.accepts]⟩

/-- **Reading a row**: it says nothing of the endpoint type and the signature. -/
theorem decode_rowOf? {subtypes : Bool} {ext provenance : String} {identity : Identity}
    {model : Model} {row : Row} (h : rowOf? subtypes ext provenance identity model = some row) :
    ecosystem.decode model.variant row =
      .ok ⟨asMethod identity, withProvenance (.ofColumn provenance) model⟩ := by
  cases model with
  | none => exact absurd h (by simp [rowOf?])
  | type relatedType path => exact absurd h (by simp [rowOf?])
  | _ =>
    obtain rfl := Option.some.inj h
    rcases hflat with rfl | rfl <;> rfl

theorem decodeChecked_rowOf? {subtypes : Bool} {ext provenance : String} {identity : Identity}
    {model : Model} {row : Row} (h : rowOf? subtypes ext provenance identity model = some row) :
    ecosystem.decodeChecked model.variant row =
      .ok ⟨asMethod identity, withProvenance (.ofColumn provenance) model⟩ := by
  have hfits : ecosystem.Fits model.variant row :=
    (fits_iff hflat).mpr ⟨subtypes, ext, provenance, identity, model, rfl, h⟩
  rw [Ecosystem.decodeChecked_of_fits hfits, decode_rowOf? hflat h]

/-! ## Writing -/

/-- **Writing a row**: subtypes are included, the extension is empty. -/
theorem encode_withProvenance {provenance : Provenance} {identity : Identity} {model : Model}
    {row : Row} (h : rowOf? true "" provenance.name identity model = some row) :
    ecosystem.encode ⟨identity, withProvenance provenance model⟩ = .ok row := by
  cases model with
  | none => exact absurd h (by simp [rowOf?])
  | type relatedType path => exact absurd h (by simp [rowOf?])
  | _ =>
    obtain rfl := Option.some.inj h
    rcases hflat with rfl | rfl <;> rfl

end

end Flat

end Dataflow
