import Dataflow.Proofs.Flat.Rows
import Dataflow.Proofs.Sorting
import Dataflow.Proofs.Validation.Conflict
import Dataflow.Proofs.Validation.Duplicate

/-!
# What is found about the models of a method

* `SaidBefore models index`: the model at the index says something, and but for its provenance an
  earlier one is equal to it.
* `DeniesFirst models index variant`: the model at the index is neutral and of the kind of a variant
  that some model has, and no neutral model before it is of that kind.

Results:
* `content_eq_iff_withProvenance`: the content of a model is all of it but the provenance.
* `not_deniesFirst_of_saidBefore`: a first neutral model of its kind repeats no other, so no model
  has two findings.
* `findings_exact`: the findings are these and no others, each model has at most one, and they are
  in the order of the models.
-/

namespace Dataflow.Validation

open Flat (withProvenance)

/-! ## Duplicates -/

/-- **Contents are models without their provenance.** -/
theorem content_eq_iff_withProvenance {a b : Model} :
    Content.ofModel a = Content.ofModel b ↔ ∃ provenance, withProvenance provenance a = b := by
  constructor
  · intro h
    refine ⟨b.provenance?.getD .manual, ?_⟩
    cases a <;> cases b <;>
      simp_all [Content.ofModel, Model.variant, Model.kind?, Model.input?, Model.output?,
        Model.provenance?, withProvenance]
  · rintro ⟨provenance, rfl⟩
    cases a <;> rfl

/-- The model at an index says something that an earlier one says. -/
def SaidBefore (models : List Model) (index : Nat) : Prop :=
  ∃ model, models[index]? = some model ∧ model ≠ .none ∧
    ∃ earlier ∈ models.take index, ∃ provenance, withProvenance provenance earlier = model

theorem repeats_iff_saidBefore {models : List Model} {index : Nat} :
    Repeats [] models index ↔ SaidBefore models index := by
  unfold Repeats SaidBefore
  simp only [Model.isModeled_iff, content_eq_iff_withProvenance, List.not_mem_nil, false_or]

/-! ## Conflicts -/

/-- The model at an index is the first neutral one that denies a variant. -/
structure DeniesFirst (models : List Model) (index : Nat) (variant : Variant) : Prop where
  /-- The variant is a source, sink, summary or type. -/
  deniable : variant ∈ deniable
  /-- The model is neutral, and its kind is the name of the variant. -/
  neutral : models[index]?.bind neutralKind? = some variant.name
  /-- Some model, before or after it, is of the variant. -/
  denied : ∃ model ∈ models, model.variant = variant
  /-- No neutral model before it is of this kind. -/
  first : ∀ earlier ∈ models.take index, neutralKind? earlier ≠ some variant.name

theorem deniesFrom_iff_deniesFirst {models : List Model} {index : Nat} {kind : String} :
    DeniesFrom (models.map Model.variant) [] models index kind ↔
      ∃ variant, DeniesFirst models index variant ∧ variant.name = kind := by
  constructor
  · intro h
    obtain ⟨variant, hdeniable, rfl, hmem⟩ := denies_iff.mp h.denied
    exact ⟨variant, ⟨hdeniable, h.neutral, List.mem_map.mp hmem, h.first⟩, rfl⟩
  · rintro ⟨variant, h, rfl⟩
    exact ⟨denies_iff.mpr ⟨variant, h.deniable, rfl, List.mem_map.mpr h.denied⟩,
      List.not_mem_nil, h.neutral, h.first⟩

/-! ## One finding for a model -/

theorem pairwise_duplicatesFrom {models : List Model} {start : Nat} {seen : List Content} :
    (duplicatesFrom start seen models).Pairwise fun a b => a.index < b.index := by
  induction models generalizing start seen with
  | nil => exact List.Pairwise.nil
  | cons model models ih =>
    unfold duplicatesFrom
    simp only
    split_ifs
    · exact ih
    · refine List.pairwise_cons.mpr ⟨fun finding hfinding => ?_, ih⟩
      obtain ⟨index, -, rfl⟩ := mem_duplicatesFrom_iff.mp hfinding
      show start < start + 1 + index
      omega
    · exact ih

theorem neutralKind?_withProvenance (provenance : Provenance) (model : Model) :
    neutralKind? (withProvenance provenance model) = neutralKind? model := by
  cases model <;> rfl

/-- **No model has two findings.** A model that repeats the kind of an earlier neutral one is not
the first of its kind. -/
theorem not_deniesFirst_of_saidBefore {models : List Model} {index : Nat} {variant : Variant}
    (h : SaidBefore models index) : ¬ DeniesFirst models index variant := by
  obtain ⟨model, hmodel, -, earlier, hearlier, provenance, rfl⟩ := h
  intro hdenies
  have hneutral := hdenies.neutral
  rw [hmodel, Option.bind_some] at hneutral
  rw [neutralKind?_withProvenance] at hneutral
  exact hdenies.first earlier hearlier hneutral

theorem mem_findingsOf_iff_exists {models : List Model} {finding : Finding} :
    finding ∈ findingsOf models ↔
      (∃ index, SaidBefore models index ∧ finding = .ofDuplicate index) ∨
        ∃ index variant, DeniesFirst models index variant ∧
          finding = .ofConflict index variant.name := by
  rw [mem_findingsOf_iff, mem_duplicatesFrom_iff, mem_conflictsFrom_iff]
  simp only [repeats_iff_saidBefore, deniesFrom_iff_deniesFirst, Nat.zero_add]
  refine or_congr_right (exists_congr fun index => ?_)
  constructor
  · rintro ⟨_, ⟨variant, h, rfl⟩, hfinding⟩
    exact ⟨variant, h, hfinding⟩
  · rintro ⟨variant, h, hfinding⟩
    exact ⟨_, ⟨variant, h, rfl⟩, hfinding⟩

theorem pairwise_findingsOf (models : List Model) :
    (findingsOf models).Pairwise fun a b => a.index < b.index := by
  have hcompare : ∀ a b : Finding,
      decide (a.index ≤ b.index) = (compare a.index b.index).isLE := by
    intro a b
    rw [Bool.eq_iff_iff, decide_eq_true_eq, Nat.isLE_compare]
  have hsorted : (findingsOf models).Pairwise fun a b => a.index ≤ b.index :=
    (Sorting.pairwise_mergeSort hcompare _).imp Nat.isLE_compare.mp
  have hdistinct : (findingsOf models).Pairwise fun a b => a.index ≠ b.index := by
    refine ((List.mergeSort_perm _ _).pairwise_iff fun h => Ne.symm h).mpr ?_
    refine List.pairwise_append.mpr ⟨?_, ?_, fun a ha b hb => ?_⟩
    · exact pairwise_duplicatesFrom.imp Nat.ne_of_lt
    · exact pairwise_conflictsFrom.imp Nat.ne_of_lt
    · obtain ⟨index, hrepeats, rfl⟩ := mem_duplicatesFrom_iff.mp ha
      obtain ⟨index', kind, hdenies, rfl⟩ := mem_conflictsFrom_iff.mp hb
      intro hindex
      obtain rfl : index = index' := Nat.add_left_cancel hindex
      obtain ⟨variant, hfirst, -⟩ := deniesFrom_iff_deniesFirst.mp hdenies
      exact not_deniesFirst_of_saidBefore (repeats_iff_saidBefore.mp hrepeats) hfirst
  refine (hsorted.and hdistinct).imp fun {a b} h => ?_
  exact Nat.lt_of_le_of_ne h.1 h.2

/-- **Validation is exact.** There is at most one finding for a model, and the findings are in the
order of the models. A model is a duplicate iff it says what an earlier one says, and a conflict iff
it is the first neutral model to deny a variant that some model has; nothing else is found. -/
theorem findings_exact (models : List ModeledMethod) :
    ((findings models).Pairwise fun a b => a.index < b.index) ∧
      ∀ finding, finding ∈ findings models ↔
        (∃ index, SaidBefore (models.map ModeledMethod.model) index ∧
            finding = .ofDuplicate index) ∨
          ∃ index variant, DeniesFirst (models.map ModeledMethod.model) index variant ∧
            finding = .ofConflict index variant.name :=
  ⟨pairwise_findingsOf _, fun _ => mem_findingsOf_iff_exists⟩

example :
    (findingsOf [.none, .neutral "sink" .manual, .sink "Argument[0]" "sql-injection" .manual,
        .neutral "sink" .aiGenerated]).map (fun finding => (finding.index, finding.rule)) =
      [(1, .conflict), (3, .duplicate)] := by cbv

end Dataflow.Validation
