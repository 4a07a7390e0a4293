import Dataflow.Proofs.Codec.Batch
import Dataflow.Proofs.MethodToken.Rows
import Dataflow.Proofs.Validation.Duplicate

/-!
# Duplicates are rows that are written twice

Models of one endpoint are duplicates when they have the same content. Here this is compared with
the rows they are written as.

* `withoutProvenance ecosystem row`: the row without the column that Java and C# have for the
  provenance of a model.
* `SameRow ecosystem a b`: two modeled methods are written as one row, but for that column.

Results:
* `sameRow_iff`: models of one variant and one endpoint are written as one row iff their contents
  are the same. The columns hold every part of the content; the path column holds a position behind
  the method, and no two positions make the same path.
* `reports_duplicate_iff_sameRow`: a model is reported as a duplicate iff an earlier one with its
  predicate is written as the same row; without such a report the rows of a predicate are distinct.
-/

namespace Dataflow

open Validation (Content Reports)

/-! ## Contents in columns -/

/-- The columns of a flat row show the content of its model. -/
theorem Flat.dropLast_encode?_eq_iff {identity : Identity} {a b : Model}
    (hcolumns : (Flat.columns? a.variant).isSome) (hvariant : a.variant = b.variant) :
    (Flat.encode? identity a).map List.dropLast = (Flat.encode? identity b).map List.dropLast ↔
      Content.ofModel a = Content.ofModel b := by
  cases a <;> cases b <;>
    simp_all [Flat.columns?, Flat.encode?, Flat.identityColumns, Content.ofModel, Model.variant,
      Model.kind?, Model.input?, Model.output?, and_comm, and_assoc]

/-- The columns of a row with a path show the content of its model, when the path shows its
position. -/
theorem MemberChain.rowOf?_eq_iff {column : String} {path : String → String}
    (hpath : Function.Injective path) {a b : Model} (hmodel : a ≠ .none)
    (hvariant : a.variant = b.variant) :
    rowOf? column (path (position a)) a = rowOf? column (path (position b)) b ↔
      Content.ofModel a = Content.ofModel b := by
  cases a <;> cases b <;>
    simp_all [rowOf?, position, Content.ofModel, Model.variant, Model.kind?, Model.input?,
      Model.output?, hpath.eq_iff, and_comm, and_assoc]

namespace Ecosystem

/-- A row without the column of the provenance, where there is one. -/
def withoutProvenance : Ecosystem → Row → Row
  | java, row | csharp, row => row.dropLast
  | python, row | ruby, row => row

/-- Two modeled methods are written as one row, but for the provenance. -/
def SameRow (ecosystem : Ecosystem) (a b : ModeledMethod) : Prop :=
  ∃ row row', ecosystem.encode a = .ok row ∧ ecosystem.encode b = .ok row' ∧
    ecosystem.withoutProvenance row = ecosystem.withoutProvenance row'

/-- Two rows that exist agree iff what is made of them does. -/
theorem exists_agree_iff {f : Row → Row} {row? row'? : Option Row} (h : row?.isSome) :
    (∃ row row', row? = some row ∧ row'? = some row' ∧ f row = f row') ↔
      row?.map f = row'?.map f := by
  obtain ⟨row, rfl⟩ := Option.isSome_iff_exists.mp h
  cases row'? <;> simp

theorem flat_encode_eq_ok_iff {ecosystem : Ecosystem}
    (hflat : ecosystem = .java ∨ ecosystem = .csharp) {identity : Identity} {model : Model}
    {row : Row} :
    ecosystem.encode ⟨identity, model⟩ = .ok row ↔ Flat.encode? identity model = some row := by
  rcases hflat with rfl | rfl
  all_goals
    unfold encode
    cases Flat.encode? identity model <;> simp

/-- **One row is one content.** Supported models of one variant and one endpoint are written as one
row iff their contents are the same. -/
theorem sameRow_iff {ecosystem : Ecosystem} {identity : Identity} {a b : Model}
    (hsupports : ecosystem.Supports a.variant) (hvariant : a.variant = b.variant) :
    ecosystem.SameRow ⟨identity, a⟩ ⟨identity, b⟩ ↔ Content.ofModel a = Content.ofModel b := by
  have hmodel : a ≠ .none := by
    rintro rfl
    exact hsupports.ne_none rfl
  have hflat : ecosystem = .java ∨ ecosystem = .csharp →
      (ecosystem.SameRow ⟨identity, a⟩ ⟨identity, b⟩ ↔
        Content.ofModel a = Content.ofModel b) := by
    intro hflat
    have hcolumns : (Flat.columns? a.variant).isSome := by
      rcases hflat with rfl | rfl <;> exact hsupports
    have hdrop : ecosystem.withoutProvenance = List.dropLast := by
      rcases hflat with rfl | rfl <;> rfl
    unfold SameRow
    simp only [flat_encode_eq_ok_iff hflat, hdrop]
    rw [exists_agree_iff (by rwa [Flat.isSome_encode?]),
      Flat.dropLast_encode?_eq_iff hcolumns hvariant]
  have hpath : ∀ (column : String) (path : String → String), Function.Injective path →
      ((∃ row row', MemberChain.rowOf? column (path (MemberChain.position a)) a = some row ∧
          MemberChain.rowOf? column (path (MemberChain.position b)) b = some row' ∧
          id row = id row') ↔
        Content.ofModel a = Content.ofModel b) := by
    intro column path hpath
    obtain ⟨row, hrow⟩ := MemberChain.exists_rowOf? hmodel column (path (MemberChain.position a))
    rw [exists_agree_iff (by rw [hrow]; rfl), Option.map_id_apply, Option.map_id_apply,
      MemberChain.rowOf?_eq_iff hpath hmodel hvariant]
  cases ecosystem with
  | java => exact hflat (Or.inl rfl)
  | csharp => exact hflat (Or.inr rfl)
  | python =>
    unfold SameRow
    simp only [MemberChain.encode_eq_ok_iff]
    exact hpath _ _ (AccessPath.append_right_injective (MemberChain.methodPath identity.method))
  | ruby =>
    unfold SameRow
    simp only [MethodToken.encode_eq_ok_iff]
    exact hpath _ _ (AccessPath.append_right_injective (MethodToken.methodPath identity.method))

/-! ## Lists of models of one endpoint -/

section

variable {ecosystem : Ecosystem} {identity : Identity} {models : List ModeledMethod}
  (hidentity : ∀ modeled ∈ models, modeled.identity = identity)
  (hsupports : ∀ modeled ∈ models, ecosystem.Supports modeled.variant)

include hidentity hsupports

/-- Two models of the list have one content iff they are written as one row of one predicate. -/
theorem content_eq_iff {a b : ModeledMethod} (ha : a ∈ models) (hb : b ∈ models) :
    Content.ofModel a.model = Content.ofModel b.model ↔
      ecosystem.predicate? a.variant = ecosystem.predicate? b.variant ∧
        ecosystem.SameRow a b := by
  have hsb := hsupports b hb
  have hsame : a.variant = b.variant → (ecosystem.SameRow a b ↔
      Content.ofModel a.model = Content.ofModel b.model) := by
    intro hvariant
    have hrow := @sameRow_iff ecosystem identity a.model b.model (hsupports a ha) hvariant
    rwa [show (⟨identity, a.model⟩ : ModeledMethod) = a by rw [← hidentity a ha],
      show (⟨identity, b.model⟩ : ModeledMethod) = b by rw [← hidentity b hb]] at hrow
  constructor
  · intro hcontent
    have hvariant : a.variant = b.variant := congrArg Content.variant hcontent
    exact ⟨by rw [hvariant], (hsame hvariant).mpr hcontent⟩
  · rintro ⟨hpredicate, hrow⟩
    obtain ⟨predicate, hfound⟩ := exists_predicate hsb
    exact (hsame (predicate?_inj (hpredicate.trans hfound) hfound)).mp hrow

theorem reports_iff_sameRow (index : Nat) :
    Reports .duplicate models index ↔
      ∃ earlier < index, ∃ a b, models[earlier]? = some a ∧ models[index]? = some b ∧
        ecosystem.predicate? a.variant = ecosystem.predicate? b.variant ∧
          ecosystem.SameRow a b := by
  rw [Validation.reports_duplicate_iff]
  refine exists_congr fun earlier => and_congr_right fun _ => ?_
  refine exists_congr fun a => exists_congr fun b => and_congr_right fun ha =>
    and_congr_right fun hb => ?_
  have hmema := List.mem_of_getElem? ha
  have hmemb := List.mem_of_getElem? hb
  have hmodeled : b.model.isModeled = true := bne_iff_ne.mpr (hsupports b hmemb).ne_none
  rw [← content_eq_iff hidentity hsupports hmema hmemb, and_iff_right hmodeled]

/-- Without a report, no two models are written as one row of one predicate. -/
theorem pairwise_not_sameRow (h : ∀ index, ¬ Reports .duplicate models index) :
    models.Pairwise fun a b =>
      ecosystem.predicate? a.variant = ecosystem.predicate? b.variant →
        ¬ ecosystem.SameRow a b := by
  refine List.pairwise_iff_getElem.mpr fun earlier index hearlier hindex hlt => ?_
  intro hpredicate hrow
  refine h index ((reports_iff_sameRow hidentity hsupports index).mpr ?_)
  exact ⟨earlier, hlt, models[earlier], models[index], List.getElem?_eq_getElem hearlier,
    List.getElem?_eq_getElem hindex, hpredicate, hrow⟩

end

/-- Models that are written as different rows have distinct rows. -/
theorem nodup_of_forall₂ {ecosystem : Ecosystem} {models : List ModeledMethod} {rows : List Row}
    (hrows : List.Forall₂ (fun modeled row => ecosystem.encode modeled = .ok row) models rows)
    (h : models.Pairwise fun a b => ¬ ecosystem.SameRow a b) : rows.Nodup := by
  induction hrows with
  | nil => exact List.nodup_nil
  | @cons modeled row models rows hrow hrows ih =>
    obtain ⟨hfirst, hlater⟩ := List.pairwise_cons.mp h
    refine List.nodup_cons.mpr ⟨fun hmem => ?_, ih hlater⟩
    obtain ⟨index, hindex, hget⟩ := List.getElem_of_mem hmem
    have hbound : index < models.length := by rw [hrows.length_eq]; exact hindex
    have hother := hrows.get hbound hindex
    refine hfirst models[index] (List.getElem_mem _) ⟨row, row, hrow, ?_, rfl⟩
    rw [← hget]
    exact hother

/-- **Duplicates are rows that are written twice.** Of models of one endpoint that are all
supported, those are reported as duplicates that are written, but for the provenance, as an earlier
model of their predicate is. Without a report, the rows of every predicate are distinct. -/
theorem reports_duplicate_iff_sameRow {ecosystem : Ecosystem} {identity : Identity}
    {models : List ModeledMethod} (hidentity : ∀ modeled ∈ models, modeled.identity = identity)
    (hsupports : ∀ modeled ∈ models, ecosystem.Supports modeled.variant) :
    (∀ index, Reports .duplicate models index ↔
      ∃ earlier < index, ∃ a b, models[earlier]? = some a ∧ models[index]? = some b ∧
        ecosystem.predicate? a.variant = ecosystem.predicate? b.variant ∧
          ecosystem.SameRow a b) ∧
    ((∀ index, ¬ Reports .duplicate models index) → ∀ includeTypes predicate rows,
      (ecosystem.encodeModels includeTypes models).get? predicate = some rows → rows.Nodup) := by
  refine ⟨reports_iff_sameRow hidentity hsupports, ?_⟩
  intro hclean includeTypes predicate rows hrows
  obtain ⟨variant, hwrites, hpredicate, hforall⟩ := exists_variant_of_get? hrows
  refine nodup_of_forall₂ hforall (List.Pairwise.imp_of_mem ?_
    ((pairwise_not_sameRow hidentity hsupports hclean).filter _))
  intro a b ha hb hdiffer
  exact hdiffer (by rw [(mem_ofVariant.mp ha).2, (mem_ofVariant.mp hb).2])

/-- Only the provenance tells the last of these sinks from the first; the other one differs in its
kind and is written as a row of its own. -/
theorem reports_duplicate_delete :
    let delete : Identity := ⟨"java.io", "File", "delete", "()", .method, "java.io.File#delete()"⟩
    let reviewed : ModeledMethod := ⟨delete, .sink "Argument[this]" "path-injection" .manual⟩
    let logged : ModeledMethod := ⟨delete, .sink "Argument[this]" "log-injection" .manual⟩
    let guessed : ModeledMethod := ⟨delete, .sink "Argument[this]" "path-injection" .aiGenerated⟩
    Reports .duplicate [reviewed, logged, guessed] 2 ∧
      ∀ rows, (java.encodeModels false [reviewed, logged]).get? "sinkModel" = some rows →
        rows.Nodup := by
  intro delete reviewed logged guessed
  have hall : ∀ modeled ∈ [reviewed, logged, guessed],
      modeled.identity = delete ∧ java.Supports modeled.variant := by decide
  have htwo : ∀ modeled ∈ [reviewed, logged],
      modeled.identity = delete ∧ java.Supports modeled.variant := by decide
  constructor
  · refine ((reports_duplicate_iff_sameRow (fun m hm => (hall m hm).1)
      fun m hm => (hall m hm).2).1 2).mpr ?_
    exact ⟨0, by decide, reviewed, guessed, rfl, rfl, rfl, _, _, rfl, rfl, rfl⟩
  · refine (reports_duplicate_iff_sameRow (fun m hm => (htwo m hm).1)
      fun m hm => (htwo m hm).2).2 ?_ false "sinkModel"
    intro index hreports
    obtain ⟨earlier, hlt, a, b, ha, hb, -, hcontent⟩ :=
      Validation.reports_duplicate_iff.mp hreports
    have hindex : index < 2 := (List.getElem?_eq_some_iff.mp hb).1
    obtain ⟨rfl, rfl⟩ : earlier = 0 ∧ index = 1 := by omega
    cases ha
    cases hb
    exact absurd hcontent (by decide)

end Ecosystem

end Dataflow
