import Dataflow.Validation
import Mathlib.Data.List.Basic
import Mathlib.Data.Nat.Init
import Mathlib.Tactic.SplitIfs

/-!
# Which models are reported as duplicates

* `Reports rule models index`: a finding of the rule concerns the model at the index.
* `Repeats seen models index`: the model at the index says something that was `seen` before the
  list or that stands before it in the list.

Results:
* `mem_duplicatesFrom_iff`: the duplicates of a list are the models that repeat.
* `reports_duplicate_iff`: a model is reported as a duplicate iff it says something and an earlier
  one has the same content.
-/

namespace Dataflow.Validation

/-- A finding of a rule concerns the model at an index. -/
def Reports (rule : Rule) (models : List ModeledMethod) (index : Nat) : Prop :=
  ∃ finding ∈ findings models, finding.rule = rule ∧ finding.index = index

/-- The model at an index says something that was seen or that stands before it. -/
def Repeats (seen : List Content) (models : List Model) (index : Nat) : Prop :=
  ∃ model, models[index]? = some model ∧ model.isModeled = true ∧
    (Content.ofModel model ∈ seen ∨
      ∃ earlier ∈ models.take index, Content.ofModel earlier = Content.ofModel model)

/-- Models of one content are of one variant, so both say something or neither does. -/
theorem isModeled_eq_of_content_eq {a b : Model} (h : Content.ofModel a = Content.ofModel b) :
    a.isModeled = b.isModeled := by
  have hvariant : a.variant = b.variant := congrArg Content.variant h
  unfold Model.isModeled
  rw [hvariant]

theorem not_repeats_nil (seen : List Content) (index : Nat) : ¬ Repeats seen [] index := by
  rintro ⟨model, hmodel, -⟩
  exact absurd hmodel (by simp)

theorem repeats_zero {seen : List Content} {model : Model} {models : List Model} :
    Repeats seen (model :: models) 0 ↔
      model.isModeled = true ∧ Content.ofModel model ∈ seen := by
  unfold Repeats
  simp

/-- Further on, the first model counts as seen. -/
theorem repeats_succ {seen : List Content} {model : Model} {models : List Model} {index : Nat} :
    Repeats seen (model :: models) (index + 1) ↔
      Repeats (Content.ofModel model :: seen) models index := by
  unfold Repeats
  simp only [List.getElem?_cons_succ, List.take_succ_cons, List.mem_cons, exists_eq_or_imp,
    or_assoc]
  refine exists_congr fun later => and_congr_right fun _ => and_congr_right fun _ => ?_
  rw [or_left_comm, @eq_comm _ (Content.ofModel model)]

/-- What was seen before need not be seen again. -/
theorem repeats_cons_of_mem {seen : List Content} {content : Content} (h : content ∈ seen)
    {models : List Model} {index : Nat} :
    Repeats (content :: seen) models index ↔ Repeats seen models index := by
  unfold Repeats
  simp only [List.mem_cons]
  refine exists_congr fun later => and_congr_right fun _ => and_congr_right fun _ => ?_
  refine or_congr_left ⟨?_, Or.inr⟩
  rintro (hsame | hseen)
  · rwa [hsame]
  · exact hseen

/-- A model that says nothing is not repeated. -/
theorem repeats_cons_of_not_modeled {seen : List Content} {model : Model}
    (h : model.isModeled = false) {models : List Model} {index : Nat} :
    Repeats (Content.ofModel model :: seen) models index ↔ Repeats seen models index := by
  unfold Repeats
  simp only [List.mem_cons]
  refine exists_congr fun later => and_congr_right fun _ => and_congr_right fun hmodeled => ?_
  refine or_congr_left (or_iff_right fun hsame => ?_)
  rw [isModeled_eq_of_content_eq hsame, h] at hmodeled
  exact absurd hmodeled (by decide)

/-- **The duplicates of a list** are the models that repeat. -/
theorem mem_duplicatesFrom_iff {finding : Finding} {models : List Model} {start : Nat}
    {seen : List Content} :
    finding ∈ duplicatesFrom start seen models ↔
      ∃ index, Repeats seen models index ∧ finding = .ofDuplicate (start + index) := by
  induction models generalizing start seen with
  | nil => simp [duplicatesFrom, not_repeats_nil]
  | cons model models ih =>
    have hshift : ∀ index, start + 1 + index = start + index + 1 := Nat.add_right_comm start 1
    rw [← Nat.or_exists_add_one]
    simp only [repeats_zero, repeats_succ, Nat.add_zero, ← Nat.add_assoc]
    unfold duplicatesFrom
    by_cases hmodeled : model.isModeled = true
    · by_cases hseen : Content.ofModel model ∈ seen
      · simp only [hmodeled, hseen, repeats_cons_of_mem hseen, Bool.not_true, Bool.false_eq_true,
          if_false, if_true, List.mem_cons, ih, hshift, true_and]
      · simp only [hmodeled, hseen, Bool.not_true, Bool.false_eq_true, if_false, ih, hshift,
          and_false, false_and, false_or]
    · rw [Bool.not_eq_true] at hmodeled
      simp only [hmodeled, repeats_cons_of_not_modeled hmodeled, Bool.not_false, if_true, ih,
        hshift, Bool.false_eq_true, false_and, false_or]

theorem rule_of_mem_conflictsFrom {variants : List Variant} {finding : Finding}
    {models : List Model} {start : Nat} {seen : List String}
    (h : finding ∈ conflictsFrom variants start seen models) : finding.rule = .conflict := by
  induction models generalizing start seen with
  | nil => exact absurd h List.not_mem_nil
  | cons model models ih =>
    cases model with
    | neutral kind provenance =>
      unfold conflictsFrom at h
      split_ifs at h with hdenied
      · rcases List.mem_cons.mp h with rfl | hlater
        · rfl
        · exact ih hlater
      · exact ih h
    | _ => exact ih h

theorem mem_findingsOf_iff {models : List Model} {finding : Finding} :
    finding ∈ findingsOf models ↔
      finding ∈ duplicatesFrom 0 [] models ∨
        finding ∈ conflictsFrom (models.map Model.variant) 0 [] models := by
  unfold findingsOf
  rw [List.mem_mergeSort, List.mem_append]

/-- A finding of the duplicate rule stands for a model that repeats. -/
theorem reports_duplicate_iff_repeats {models : List ModeledMethod} {index : Nat} :
    Reports .duplicate models index ↔ Repeats [] (models.map ModeledMethod.model) index := by
  unfold Reports findings
  simp only [mem_findingsOf_iff, mem_duplicatesFrom_iff, Nat.zero_add]
  constructor
  · rintro ⟨finding, ⟨index', hrepeats, rfl⟩ | hconflict, hrule, hindex⟩
    · obtain rfl : index' = index := hindex
      exact hrepeats
    · rw [rule_of_mem_conflictsFrom hconflict] at hrule
      exact absurd hrule (by decide)
  · intro hrepeats
    exact ⟨.ofDuplicate index, Or.inl ⟨index, hrepeats, rfl⟩, rfl, rfl⟩

/-- **What is reported as a duplicate**: a model that says something, when an earlier one has the
same content. -/
theorem reports_duplicate_iff {models : List ModeledMethod} {index : Nat} :
    Reports .duplicate models index ↔
      ∃ earlier < index, ∃ a b, models[earlier]? = some a ∧ models[index]? = some b ∧
        b.model.isModeled = true ∧ Content.ofModel a.model = Content.ofModel b.model := by
  rw [reports_duplicate_iff_repeats]
  unfold Repeats
  simp only [List.getElem?_map, Option.map_eq_some_iff, ← List.map_take, List.mem_map,
    List.not_mem_nil, false_or]
  constructor
  · rintro ⟨_, ⟨b, hb, rfl⟩, hmodeled, _, ⟨a, ha, rfl⟩, hcontent⟩
    obtain ⟨earlier, hlt, rfl⟩ := List.mem_take_iff_getElem.mp ha
    exact ⟨earlier, by omega, _, b, List.getElem?_eq_getElem (by omega), hb, hmodeled, hcontent⟩
  · rintro ⟨earlier, hlt, a, b, ha, hb, hmodeled, hcontent⟩
    obtain ⟨hlength, rfl⟩ := List.getElem?_eq_some_iff.mp ha
    exact ⟨_, ⟨b, hb, rfl⟩, hmodeled, _,
      ⟨_, List.mem_take_iff_getElem.mpr ⟨earlier, by omega, rfl⟩, rfl⟩, hcontent⟩

end Dataflow.Validation
