import Dataflow.Proofs.Validation.Findings
import Mathlib.Data.Nat.Find

/-!
# Heeding the findings about the models of a method

The user is told to remove each model that a finding concerns. Only the first neutral model of a
kind is a conflict; the others of the kind are found because they repeat it. So all that deny a
variant are removed together, and nothing new is found afterwards.

* `deleteAt indices xs`: what is left when the elements at the indices are deleted together.
* `heeded models`: the models that no finding concerns.
* `Denies models model`: the model is neutral and of the kind of a variant that some model has.

Results:
* `saidBefore_or_deniesFirst`: each model that denies a variant has a finding.
* `findings_heeded`: nothing is found about what is left, and this is all that the models said but
  for the denials.
-/

namespace Dataflow.Validation

open Flat (withProvenance)

/-! ## Deleting by index -/

section Deletion

variable {α β : Type} {indices : List Nat} {xs : List α}

/-- The elements of a list that do not stand at one of the indices. -/
def deleteAt (indices : List Nat) (xs : List α) : List α :=
  (xs.zipIdx.filter fun entry => entry.2 ∉ indices).map Prod.fst

theorem mem_deleteAt {x : α} :
    x ∈ deleteAt indices xs ↔ ∃ index, xs[index]? = some x ∧ index ∉ indices := by
  unfold deleteAt
  simp only [List.mem_map, List.mem_filter, List.mem_zipIdx_iff_getElem?, decide_eq_true_eq]
  constructor
  · rintro ⟨⟨x, index⟩, ⟨hx, hindex⟩, rfl⟩
    exact ⟨index, hx, hindex⟩
  · rintro ⟨index, hx, hindex⟩
    exact ⟨(x, index), ⟨hx, hindex⟩, rfl⟩

theorem mem_of_mem_deleteAt {x : α} (h : x ∈ deleteAt indices xs) : x ∈ xs := by
  obtain ⟨index, hx, -⟩ := mem_deleteAt.mp h
  exact List.mem_of_getElem? hx

theorem map_deleteAt (f : α → β) (indices : List Nat) (xs : List α) :
    (deleteAt indices xs).map f = deleteAt indices (xs.map f) := by
  unfold deleteAt
  rw [List.zipIdx_map, List.filter_map, List.map_map, List.map_map]
  rfl

/-- What is left stands in the order of the list. -/
theorem pairwise_deleteAt {R : α → α → Prop}
    (h : ∀ i j a b, i < j → xs[i]? = some a → xs[j]? = some b → j ∉ indices → R a b) :
    (deleteAt indices xs).Pairwise R := by
  unfold deleteAt
  rw [List.pairwise_map, List.pairwise_filter, List.pairwise_iff_getElem]
  intro i j hi hj hij _ hkept
  simp only [List.getElem_zipIdx, Nat.zero_add, decide_eq_true_eq] at hkept ⊢
  rw [List.length_zipIdx] at hi hj
  exact h i j _ _ hij (List.getElem?_eq_getElem hi) (List.getElem?_eq_getElem hj) hkept

end Deletion

/-! ## Models that findings concern -/

variable {models : List Model} {model : Model} {index : Nat}

/-- The indices of the models that findings concern. -/
def reported (models : List Model) : List Nat :=
  (findingsOf models).map Finding.index

theorem mem_reported_iff :
    index ∈ reported models ↔
      SaidBefore models index ∨ ∃ variant, DeniesFirst models index variant := by
  unfold reported
  simp only [List.mem_map, mem_findingsOf_iff_exists]
  constructor
  · rintro ⟨_, ⟨index, h, rfl⟩ | ⟨index, variant, h, rfl⟩, rfl⟩
    · exact Or.inl h
    · exact Or.inr ⟨variant, h⟩
  · rintro (h | ⟨variant, h⟩)
    · exact ⟨.ofDuplicate index, Or.inl ⟨index, h, rfl⟩, rfl⟩
    · exact ⟨.ofConflict index variant.name, Or.inr ⟨index, variant, h, rfl⟩, rfl⟩

/-- A model is neutral and denies a variant that some model has. -/
def Denies (models : List Model) (model : Model) : Prop :=
  ∃ variant ∈ deniable, neutralKind? model = some variant.name ∧
    ∃ other ∈ models, other.variant = variant

theorem DeniesFirst.exists_denies {variant : Variant} (h : DeniesFirst models index variant) :
    ∃ model, models[index]? = some model ∧ Denies models model := by
  obtain ⟨model, hmodel, hneutral⟩ := Option.bind_eq_some_iff.mp h.neutral
  exact ⟨model, hmodel, variant, h.deniable, hneutral, h.denied⟩

/-- Neutral models of one kind are equal but for their provenance. -/
theorem withProvenance_of_neutralKind {a b : Model} {kind : String}
    (ha : neutralKind? a = some kind) (hb : neutralKind? b = some kind) :
    ∃ provenance, withProvenance provenance a = b := by
  cases a <;> cases b <;> simp_all [neutralKind?, withProvenance]

/-- **A model that denies a variant has a finding.** If it is not the first neutral one of its kind,
it repeats that one. -/
theorem saidBefore_or_deniesFirst (hmodel : models[index]? = some model)
    (h : Denies models model) :
    SaidBefore models index ∨ ∃ variant, DeniesFirst models index variant := by
  obtain ⟨variant, hdeniable, hneutral, hdenied⟩ := h
  by_cases hfirst : ∀ earlier ∈ models.take index, neutralKind? earlier ≠ some variant.name
  · refine Or.inr ⟨variant, hdeniable, ?_, hdenied, hfirst⟩
    rw [hmodel, Option.bind_some, hneutral]
  · push Not at hfirst
    obtain ⟨earlier, hearlier, hkind⟩ := hfirst
    refine Or.inl ⟨model, hmodel, ?_, earlier, hearlier,
      withProvenance_of_neutralKind hkind hneutral⟩
    rintro rfl
    exact absurd hneutral (by simp [neutralKind?])

theorem not_denies_of_mem (h : model ∈ deleteAt (reported models) models) :
    ¬ Denies models model := by
  obtain ⟨index, hmodel, hindex⟩ := mem_deleteAt.mp h
  exact fun hdenies => hindex (mem_reported_iff.mpr (saidBefore_or_deniesFirst hmodel hdenies))

/-- The models that are left are not equal but for their provenance. -/
theorem pairwise_unreported (models : List Model) :
    (deleteAt (reported models) models).Pairwise fun earlier model =>
      model ≠ .none → ∀ provenance, withProvenance provenance earlier ≠ model := by
  refine pairwise_deleteAt fun i j earlier model hij hearlier hmodel hkept => ?_
  intro hsays provenance hsame
  obtain ⟨hi, rfl⟩ := List.getElem?_eq_some_iff.mp hearlier
  have hbefore : models[i] ∈ models.take j := List.mem_take_iff_getElem.mpr ⟨i, by omega, rfl⟩
  have hsaid : SaidBefore models j := ⟨model, hmodel, hsays, _, hbefore, provenance, hsame⟩
  exact hkept (mem_reported_iff.mpr (Or.inl hsaid))

/-! ## What is left -/

theorem findingsOf_unreported (models : List Model) :
    findingsOf (deleteAt (reported models) models) = [] := by
  refine List.eq_nil_iff_forall_not_mem.mpr fun finding hfinding => ?_
  rcases mem_findingsOf_iff_exists.mp hfinding with ⟨index, hsaid, -⟩ | ⟨index, variant, hdenies, -⟩
  · obtain ⟨model, hmodel, hsays, earlier, hearlier, provenance, hsame⟩ := hsaid
    obtain ⟨i, hi, rfl⟩ := List.mem_take_iff_getElem.mp hearlier
    obtain ⟨hindex, rfl⟩ := List.getElem?_eq_some_iff.mp hmodel
    have hdistinct := List.pairwise_iff_getElem.mp (pairwise_unreported models) i index
      (by omega) hindex (by omega)
    exact hdistinct hsays provenance hsame
  · -- What a model denies that is left was there before, too.
    obtain ⟨model, hmodel, variant, hdeniable, hneutral, other, hother, hvariant⟩ :=
      hdenies.exists_denies
    exact not_denies_of_mem (List.mem_of_getElem? hmodel)
      ⟨variant, hdeniable, hneutral, other, mem_of_mem_deleteAt hother, hvariant⟩

/-- Some model is the first to say what a model says. -/
theorem exists_not_saidBefore (h : model ∈ models) :
    ∃ index kept, models[index]? = some kept ∧ Content.ofModel kept = Content.ofModel model ∧
      ¬ SaidBefore models index := by
  classical
  have hexists : ∃ index : Nat, ∃ kept, models[index]? = some kept ∧
      Content.ofModel kept = Content.ofModel model := by
    obtain ⟨index, hindex⟩ := List.getElem?_of_mem h
    exact ⟨index, model, hindex, rfl⟩
  obtain ⟨kept, hkept, hcontent⟩ := Nat.find_spec hexists
  refine ⟨Nat.find hexists, kept, hkept, hcontent, ?_⟩
  rintro ⟨_, hmodel, -, earlier, hearlier, hrepeats⟩
  obtain rfl := Option.some.inj (hkept.symm.trans hmodel)
  obtain ⟨i, hi, rfl⟩ := List.mem_take_iff_getElem.mp hearlier
  have hsame := (content_eq_iff_withProvenance.mpr hrepeats).trans hcontent
  exact Nat.find_min hexists (m := i) (by omega) ⟨_, List.getElem?_eq_getElem (by omega), hsame⟩

/-- What a model says is still said, unless it denies a variant. -/
theorem exists_unreported (h : model ∈ models) :
    Denies models model ∨
      ∃ kept ∈ deleteAt (reported models) models, ∃ provenance,
        withProvenance provenance kept = model := by
  obtain ⟨index, kept, hkept, hcontent, hfirst⟩ := exists_not_saidBefore h
  obtain ⟨provenance, rfl⟩ := content_eq_iff_withProvenance.mp hcontent
  by_cases hdenied : Denies models kept
  · obtain ⟨variant, hdeniable, hneutral, hother⟩ := hdenied
    rw [← neutralKind?_withProvenance provenance] at hneutral
    exact Or.inl ⟨variant, hdeniable, hneutral, hother⟩
  · refine Or.inr ⟨kept, mem_deleteAt.mpr ⟨index, hkept, fun hreported => ?_⟩, provenance, rfl⟩
    obtain ⟨variant, hdenies⟩ := (mem_reported_iff.mp hreported).resolve_left hfirst
    obtain ⟨model, hmodel, hdenies⟩ := hdenies.exists_denies
    obtain rfl := Option.some.inj (hkept.symm.trans hmodel)
    exact hdenied hdenies

/-- The models of a method that no finding concerns. -/
def heeded (models : List ModeledMethod) : List ModeledMethod :=
  deleteAt ((findings models).map Finding.index) models

theorem map_model_heeded (models : List ModeledMethod) :
    (heeded models).map ModeledMethod.model =
      deleteAt (reported (models.map ModeledMethod.model)) (models.map ModeledMethod.model) :=
  map_deleteAt ModeledMethod.model _ models

/-- **Heeding the findings once is enough.** Nothing is found about the models that are left. They
say what the models said, but for the neutral ones that denied a variant. -/
theorem findings_heeded (models : List ModeledMethod) :
    findings (heeded models) = [] ∧
      ∀ modeled ∈ models, Denies (models.map ModeledMethod.model) modeled.model ∨
        ∃ kept ∈ heeded models, ∃ provenance,
          withProvenance provenance kept.model = modeled.model := by
  constructor
  · unfold findings
    rw [map_model_heeded]
    exact findingsOf_unreported _
  · intro modeled hmodeled
    refine (exists_unreported (List.mem_map_of_mem hmodeled)).imp_right ?_
    rw [← map_model_heeded]
    rintro ⟨_, hkept, hsame⟩
    obtain ⟨kept, hmem, rfl⟩ := List.mem_map.mp hkept
    exact ⟨kept, hmem, hsame⟩

/-- Of two neutral models of one kind the first is a conflict and the second a duplicate. The sink
that they deny is left. -/
theorem findings_heeded_execute :
    let identity : Identity := ⟨"org.apache.commons", "Runtime", "execute", "(String)", .method,
      "org.apache.commons.Runtime#execute(String)"⟩
    let sink : ModeledMethod := ⟨identity, .sink "Argument[0]" "command-injection" .manual⟩
    let models : List ModeledMethod :=
      [⟨identity, .neutral "sink" .manual⟩, sink, ⟨identity, .neutral "sink" .dfGenerated⟩]
    sink ∈ models ∧ findings (heeded models) = [] ∧
      ∃ kept ∈ heeded models, ∃ provenance,
        withProvenance provenance kept.model = sink.model := by
  intro identity sink models
  have hmem : sink ∈ models := List.mem_cons_of_mem _ List.mem_cons_self
  obtain ⟨hnone, hkept⟩ := findings_heeded models
  refine ⟨hmem, hnone, (hkept sink hmem).resolve_left ?_⟩
  rintro ⟨variant, -, hneutral, -⟩
  exact absurd hneutral (by simp [sink, neutralKind?])

end Dataflow.Validation
