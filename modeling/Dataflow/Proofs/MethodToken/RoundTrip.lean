import Dataflow.Proofs.MemberChain.TypeColumn
import Dataflow.Proofs.MethodToken.Rows

/-!
# Which models and rows survive as rows with a method token

* `Canonical identity position`: an endpoint, with the position a model speaks of, that its two
  columns tell from all others.
* `rewritten variant row`: the row with the path that is written for the one that was read.

Results:
* `encode_decodeChecked_eq_self_iff`: a modeled method that is written and read is the same iff its
  endpoint is canonical and its provenance is `manual`.
* `rewritten_of_fits`: every row that has the columns of a variant is read; written again it is
  `rewritten`, and this row is read as the same modeled method.
-/

namespace Dataflow.MethodToken

open AccessPath
open MemberChain (rowOf? rowOf?_inj exists_rowOf? position Manual Marked)

/-! ## Endpoints -/

/-- An endpoint and a position that are read back from the two columns written for them. -/
structure Canonical (identity : Identity) (position : String) : Prop where
  /-- No package is written. -/
  package : identity.package = ""
  /-- Parameters are not written. -/
  parameters : identity.parameters = ""
  /-- The signature is that of the type and the method. -/
  signature : identity.signature = identity.typeName ++ "#" ++ identity.method
  /-- The type and the method show what the endpoint is. -/
  shown : identity.endpointType =
    if Marked identity.typeName ∧ identity.method = "new" then .constructor
    else if identity.method = "" then .classObject
    else .method
  /-- The path falls apart into the method and the position. -/
  separable : Separable identity.method position

theorem endpointType_eq (typeName method : String) :
    endpointType typeName method =
      if Marked typeName ∧ method = "new" then .constructor
      else if method = "" then .classObject
      else .method := by
  unfold endpointType
  refine if_congr ?_ rfl rfl
  rw [Bool.and_eq_true, Text.endsWith_iff, beq_iff_eq]
  rfl

/-- An endpoint is read back iff its type and method determine it. -/
theorem identityOf_eq_iff {identity : Identity} {typeName method : String} :
    identityOf typeName method = identity ↔
      identity.typeName = typeName ∧ identity.method = method ∧ identity.package = "" ∧
        identity.parameters = "" ∧ identity.signature = typeName ++ "#" ++ method ∧
        identity.endpointType =
          if Marked typeName ∧ method = "new" then .constructor
          else if method = "" then .classObject
          else .method := by
  obtain ⟨package, typeName', method', parameters, endpointType', sig⟩ := identity
  rw [← endpointType_eq]
  simp only [identityOf, signature, Identity.mk.injEq]
  constructor
  · rintro ⟨rfl, rfl, rfl, rfl, rfl, rfl⟩
    exact ⟨rfl, rfl, rfl, rfl, rfl, rfl⟩
  · rintro ⟨rfl, rfl, rfl, rfl, rfl, rfl⟩
    exact ⟨rfl, rfl, rfl, rfl, rfl, rfl⟩

/-! ## Write, then read -/

/-- A method and a position that are read back are separable. Where a model has no position, the
rest of the path is not read. -/
theorem separable_of_read {method : String} {model : Model}
    (hmethod : (splitPath (pathOf method (position model))).1 = method)
    (hmodel : withPosition (splitPath (pathOf method (position model))).2 model = model) :
    Separable method (position model) := by
  have hclosed := (separable_splitPath (pathOf method (position model))).closed
  rw [hmethod] at hclosed
  cases model with
  | none => exact separable_empty_iff.mpr hclosed
  | summary input output kind provenance => exact separable_empty_iff.mpr hclosed
  | neutral kind provenance => exact separable_empty_iff.mpr hclosed
  | source output kind provenance =>
    rw [withPosition, Model.source.injEq] at hmodel
    exact separable_iff.mpr (Prod.ext hmethod hmodel.1)
  | sink input kind provenance =>
    rw [withPosition, Model.sink.injEq] at hmodel
    exact separable_iff.mpr (Prod.ext hmethod hmodel.1)
  | type relatedType path =>
    rw [withPosition, Model.type.injEq] at hmodel
    exact separable_iff.mpr (Prod.ext hmethod hmodel.2)

/-- **Write, then read.** A modeled method survives iff it is modeled, its endpoint is canonical and
no tool wrote it. -/
theorem encode_decodeChecked_eq_self_iff (modeled : ModeledMethod) :
    (Ecosystem.ruby.encode modeled).bind (Ecosystem.ruby.decodeChecked modeled.variant) =
        .ok modeled ↔
      modeled.model ≠ .none ∧ Canonical modeled.identity (position modeled.model) ∧
        Manual modeled.model := by
  obtain ⟨identity, model⟩ := modeled
  simp only [ModeledMethod.variant]
  by_cases hmodel : model = .none
  · subst hmodel
    simp [Ecosystem.encode, encode?, Except.bind]
  obtain ⟨row, hrow⟩ := exists_rowOf? hmodel identity.typeName
    (pathOf identity.method (position model))
  rw [encode_eq_ok_iff.mpr hrow, Except.bind, decodeChecked_rowOf? hrow, Except.ok.injEq,
    ModeledMethod.mk.injEq, identityOf_eq_iff]
  constructor
  · rintro ⟨⟨-, hmethod, hpackage, hparameters, hsignature, hshown⟩, hread⟩
    have hsep := separable_of_read hmethod.symm hread
    rw [← hmethod] at hsignature hshown
    refine ⟨hmodel, ⟨hpackage, hparameters, hsignature, hshown, hsep⟩, ?_⟩
    rw [← hread]
    exact manual_withPosition _ model
  · rintro ⟨-, hcanonical, hmanual⟩
    rw [splitPath_pathOf hcanonical.separable]
    exact ⟨⟨rfl, rfl, hcanonical.package, hcanonical.parameters, hcanonical.signature,
      hcanonical.shown⟩, withPosition_position hmanual⟩

/-! ## Read, then write and read again -/

/-- The column of the path. -/
def pathColumn : Variant → Nat
  | .type => 2
  | _ => 1

/-- The path that is written for a path that was read. A summary or neutral row keeps the method
only. -/
def rewrittenPath : Variant → String → String
  | .source, path | .sink, path | .type, path => withoutEmptyEnd path
  | .summary, path | .neutral, path | .none, path => leadingToken path

/-- The row that is written for a row that was read. -/
def rewritten (variant : Variant) (row : Row) : Row :=
  row.set (pathColumn variant) (.text (rewrittenPath variant (row.textAt (pathColumn variant))))

theorem rowOf?_rewritten {column path : String} {model : Model} {row : Row}
    (h : rowOf? column path model = some row) :
    rowOf? column (rewrittenPath model.variant path) model =
      some (rewritten model.variant row) := by
  cases model with
  | none => exact absurd h (by simp [rowOf?])
  | _ =>
    obtain rfl := Option.some.inj h
    rfl

/-- The path that is written for a model that was read. -/
theorem pathOf_position (path : String) (model : Model) :
    pathOf (splitPath path).1 (position (withPosition (splitPath path).2 model)) =
      rewrittenPath model.variant path := by
  have halone : pathOf (splitPath path).1 "" = leadingToken path := by
    rw [← methodPath_splitPath]
    exact append_empty_right _
  cases model with
  | source output kind provenance => exact pathOf_splitPath path
  | sink input kind provenance => exact pathOf_splitPath path
  | type relatedType path' => exact pathOf_splitPath path
  | summary input output kind provenance => exact halone
  | neutral kind provenance => exact halone
  | none => exact halone

/-- The method and the position of a model that was read are separable. -/
theorem separable_position (path : String) (model : Model) :
    Separable (splitPath path).1 (position (withPosition (splitPath path).2 model)) := by
  have hsep := separable_splitPath path
  have halone : Separable (splitPath path).1 "" := separable_empty_iff.mpr hsep.closed
  cases model with
  | source output kind provenance => exact hsep
  | sink input kind provenance => exact hsep
  | type relatedType path' => exact hsep
  | summary input output kind provenance => exact halone
  | neutral kind provenance => exact halone
  | none => exact halone

/-- **Read, write, read.** Every row that has the columns of a variant is read. What was read is
written as the row it came from, with the rewritten path, and this row is read as the same. -/
theorem rewritten_of_fits {variant : Variant} {row : Row} (h : Ecosystem.ruby.Fits variant row) :
    ∃ modeled, Ecosystem.ruby.decode variant row = .ok modeled ∧
      Ecosystem.ruby.encode modeled = .ok (rewritten variant row) ∧
      Ecosystem.ruby.decodeChecked variant (rewritten variant row) = .ok modeled := by
  obtain ⟨column, path, model, rfl, hrow⟩ := fits_iff.mp h
  have hwritten := rowOf?_rewritten hrow
  refine ⟨_, decode_rowOf? hrow, encode_eq_ok_iff.mpr ?_, ?_⟩
  · rw [rowOf?_withPosition, ← hwritten, ← pathOf_position]
    rfl
  · have hmodel := withPosition_position (manual_withPosition (splitPath path).2 model)
    rw [withPosition_withPosition] at hmodel
    rw [decodeChecked_rowOf? hwritten, ← pathOf_position,
      splitPath_pathOf (separable_position path model), hmodel]

/-- An empty position behind a method is lost with its dot. -/
theorem rewritten_execute :
    Ecosystem.ruby.Fits .sink
        [.text "SQLite3::Database", .text "Method[execute].", .text "sql-injection"] ∧
      ∃ modeled,
        Ecosystem.ruby.decode .sink
            [.text "SQLite3::Database", .text "Method[execute].", .text "sql-injection"] =
          .ok modeled ∧
        Ecosystem.ruby.encode modeled =
          .ok [.text "SQLite3::Database", .text "Method[execute]", .text "sql-injection"] ∧
        Ecosystem.ruby.decodeChecked .sink
            [.text "SQLite3::Database", .text "Method[execute]", .text "sql-injection"] =
          .ok modeled := by
  have hfits : Ecosystem.ruby.Fits .sink
      [.text "SQLite3::Database", .text "Method[execute].", .text "sql-injection"] :=
    ⟨_, rfl, by simp [ColumnKind.accepts]⟩
  have hrow : rewritten .sink
      [.text "SQLite3::Database", .text "Method[execute].", .text "sql-injection"] =
      [.text "SQLite3::Database", .text "Method[execute]", .text "sql-injection"] := by decide
  obtain ⟨modeled, hread, hwritten, hagain⟩ := rewritten_of_fits hfits
  rw [hrow] at hwritten hagain
  exact ⟨hfits, modeled, hread, hwritten, hagain⟩

end Dataflow.MethodToken
