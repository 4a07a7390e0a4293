import Dataflow.Proofs.Flat.Rows

/-!
# Flat rows in both directions

* `rewritten variant row`: the row with subtypes included, no extension and a known provenance.

Results:
* `roundTrips`: a modeled method that is written and read is the same but for its endpoint type and
  signature; a row that is read and written is the same but for the three columns that are
  `rewritten`, and then never changes again.
-/

namespace Dataflow.Flat

/-- The column of the provenance. -/
def provenanceColumn : Variant → Nat
  | .summary => 9
  | .neutral => 5
  | _ => 8

/-- The row that is written for a row that was read. Neutral rows have no columns for subtypes and
extension. -/
def rewritten (variant : Variant) (row : Row) : Row :=
  let known := row.set (provenanceColumn variant)
    (.text (Provenance.rewritten (row.textAt (provenanceColumn variant))))
  if variant = .neutral then known else (known.set 2 (.boolean true)).set 5 (.text "")

theorem rowOf?_rewritten {subtypes : Bool} {ext provenance : String} {identity : Identity}
    {model : Model} {row : Row} (h : rowOf? subtypes ext provenance identity model = some row) :
    rowOf? true "" (Provenance.rewritten provenance) identity model =
      some (rewritten model.variant row) := by
  cases model with
  | none => exact absurd h (by simp [rowOf?])
  | type relatedType path => exact absurd h (by simp [rowOf?])
  | _ =>
    obtain rfl := Option.some.inj h
    rfl

section

variable {ecosystem : Ecosystem} (hflat : ecosystem = .java ∨ ecosystem = .csharp)

include hflat

/-- **Write, then read.** The endpoint becomes the method of its names. -/
theorem decodeChecked_encode {model : Model}
    (h : model.variant ∈ [Variant.source, .sink, .summary, .neutral]) (identity : Identity) :
    ∃ row, ecosystem.encode ⟨identity, model⟩ = .ok row ∧
      ecosystem.decodeChecked model.variant row = .ok ⟨asMethod identity, model⟩ := by
  obtain ⟨provenance, row, hmodel, hrow⟩ := exists_rowOf? h identity
  refine ⟨row, ?_, ?_⟩
  · rw [← hmodel]
    exact encode_withProvenance hflat hrow
  · rw [decodeChecked_rowOf? hflat hrow, Provenance.ofColumn_name, hmodel]

/-- **Read, then write.** Every row that has the columns of a variant is read. What was read is
written as the rewritten row, and this row is read as the same. -/
theorem encode_decode {variant : Variant} {row : Row} (h : ecosystem.Fits variant row) :
    ∃ modeled, ecosystem.decode variant row = .ok modeled ∧
      ecosystem.encode modeled = .ok (rewritten variant row) ∧
      ecosystem.decodeChecked variant (rewritten variant row) = .ok modeled := by
  obtain ⟨subtypes, ext, provenance, identity, model, rfl, hrow⟩ := (fits_iff hflat).mp h
  have hwritten := rowOf?_rewritten hrow
  rw [← Provenance.name_ofColumn] at hwritten
  refine ⟨_, decode_rowOf? hflat hrow, encode_withProvenance hflat ?_, ?_⟩
  · rw [rowOf?_asMethod]
    exact hwritten
  · rw [decodeChecked_rowOf? hflat hwritten, Provenance.ofColumn_name]

/-- **Flat rows in both directions.** -/
theorem roundTrips :
    (∀ identity model, model.variant ∈ [Variant.source, .sink, .summary, .neutral] →
      ∃ row, ecosystem.encode ⟨identity, model⟩ = .ok row ∧
        ecosystem.decodeChecked model.variant row =
          .ok ⟨{ identity with
            endpointType := .method, signature := ecosystem.signature identity }, model⟩ ∧
        (ecosystem.decodeChecked model.variant row = .ok ⟨identity, model⟩ ↔
          identity.endpointType = .method ∧
            identity.signature = ecosystem.signature identity)) ∧
    ∀ variant row, ecosystem.Fits variant row →
      ∃ modeled, ecosystem.decode variant row = .ok modeled ∧
        ecosystem.encode modeled = .ok (rewritten variant row) ∧
        ecosystem.decodeChecked variant (rewritten variant row) = .ok modeled := by
  refine ⟨fun identity model hmodel => ?_, fun variant row => encode_decode hflat⟩
  have hsignature : ecosystem.signature = signature := by rcases hflat with rfl | rfl <;> rfl
  obtain ⟨row, hwritten, hread⟩ := decodeChecked_encode hflat hmodel identity
  rw [hsignature]
  refine ⟨row, hwritten, hread, ?_⟩
  rw [hread, Except.ok.injEq, ModeledMethod.mk.injEq, and_iff_left rfl, asMethod_eq_self_iff]

end

/-- A constructor is read back as a method, and a row written by hand is tidied once. -/
theorem roundTrips_connection :
    (∃ row, Ecosystem.csharp.encode
          ⟨⟨"System.Data", "SqlConnection", "Open", "(string)", .constructor, ""⟩,
            .summary "Argument[0]" "ReturnValue" "taint" .aiManual⟩ = .ok row ∧
        Ecosystem.csharp.decodeChecked .summary row =
          .ok ⟨⟨"System.Data", "SqlConnection", "Open", "(string)", .method,
              "System.Data.SqlConnection#Open(string)"⟩,
            .summary "Argument[0]" "ReturnValue" "taint" .aiManual⟩) ∧
      ∃ modeled,
        Ecosystem.csharp.decode .sink
            [.text "System.Data", .text "SqlConnection", .boolean false, .text "Open",
              .text "(string)", .text "Async", .text "Argument[0]", .text "sql-injection",
              .text "by-hand"] = .ok modeled ∧
          Ecosystem.csharp.encode modeled =
            .ok [.text "System.Data", .text "SqlConnection", .boolean true, .text "Open",
              .text "(string)", .text "", .text "Argument[0]", .text "sql-injection",
              .text "manual"] := by
  have hflat : Ecosystem.csharp = .java ∨ Ecosystem.csharp = .csharp := Or.inr rfl
  obtain ⟨hwriteRead, hreadWrite⟩ := roundTrips hflat
  have hfits : Ecosystem.csharp.Fits .sink
      [.text "System.Data", .text "SqlConnection", .boolean false, .text "Open",
        .text "(string)", .text "Async", .text "Argument[0]", .text "sql-injection",
        .text "by-hand"] :=
    ⟨_, rfl, by simp [ColumnKind.accepts]⟩
  constructor
  · obtain ⟨row, hwritten, hread, -⟩ := hwriteRead
      ⟨"System.Data", "SqlConnection", "Open", "(string)", .constructor, ""⟩
      (.summary "Argument[0]" "ReturnValue" "taint" .aiManual) (by simp [Model.variant])
    exact ⟨row, hwritten, hread⟩
  · obtain ⟨modeled, hread, hwritten, -⟩ := hreadWrite .sink _ hfits
    exact ⟨modeled, hread, hwritten⟩

end Dataflow.Flat
