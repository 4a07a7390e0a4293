import Dataflow.Proofs.Suggestion.Matching
import Dataflow.Proofs.Text.FinalSigma

/-!
# Typing more of a token

Whoever types more of a token expects to see fewer completions, and no new ones. This is so when the
lower case of what has been typed stands in that of what is typed now. A capital sigma at the end of
a word is where it may fail: `ς` becomes `σ` when the word goes on.

* `stem labels options`: a forest in which the labels lead down to some nodes.

Results:
* `matching_sublist`: what is found for a longer token is found for the shorter one, in one order.
* `matching_subset_iff`: when this is so in every forest.
* `matching_sigma`: a forest in which it is not.
-/

namespace Dataflow.Completion

open AccessPath

variable {typed longer fragment more : String} {front : List String}

/-- A label that contains a fragment contains what stands in it. -/
theorem fits_of_infix {begun grown : String} {option : Completion}
    (h : (Text.lowercase begun).toList <:+: (Text.lowercase grown).toList)
    (hfits : fits grown option = true) : fits begun option = true :=
  Text.contains_iff.mpr (h.trans (Text.contains_iff.mp hfits))

/-- A fragment fits its own label. -/
theorem fits_self (fragment value icon : String) (details : Option String)
    (followup : List Completion) :
    fits fragment (node fragment value icon details followup) = true :=
  Text.contains_iff.mpr List.infix_rfl

/-- **What is found for a longer token is found for the shorter one**, in one order. -/
theorem matching_sublist {begun grown : String} (htyped : texts typed = front ++ [begun])
    (hlonger : texts longer = front ++ [grown])
    (h : (Text.lowercase begun).toList <:+: (Text.lowercase grown).toList)
    (options : List Completion) : (matching options longer).Sublist (matching options typed) := by
  rw [matching_of_texts htyped, matching_of_texts hlonger]
  cases descend options front with
  | none =>
    rw [Option.map_none, Option.map_none]
  | some reached => exact List.monotone_filter_right reached fun option => fits_of_infix h

/-! ## A forest for each path -/

/-- Labels that lead down to some nodes. -/
def stem (labels : List String) (options : List Completion) : List Completion :=
  labels.foldr (fun label below => [node label "" "" none below]) options

theorem descend_stem (options : List Completion) :
    ∀ labels : List String, descend (stem labels options) labels = some options
  | [] => rfl
  | label :: labels => by
    have hfind : (stem (label :: labels) options).find? (fun option => option.label == label) =
        some (node label "" "" none (stem labels options)) :=
      List.find?_cons_of_pos (beq_self_eq_true label)
    rw [descend, hfind]
    exact descend_stem options labels

theorem matching_stem (htyped : texts typed = front ++ [fragment]) (options : List Completion) :
    matching (stem front options) typed = options.filter (fits fragment) := by
  rw [matching_of_texts htyped, descend_stem, Option.map_some, Option.getD_some]

/-! ## The same tokens but for the last -/

/-- **Typing more of a token narrows the completions of every forest**, unless it reopens a capital
sigma and what was typed is not found elsewhere in what is typed now. -/
theorem matching_subset_iff (htyped : texts typed = front ++ [fragment])
    (hlonger : texts longer = front ++ [fragment ++ more]) :
    (∀ options, matching options longer ⊆ matching options typed) ↔
      (Text.Reopens fragment more →
        (Text.lowercase fragment).toList <:+: (Text.lowercase (fragment ++ more)).toList) := by
  constructor
  · intro h _
    -- The longer token is itself a label that is found for it.
    have hfound : node (fragment ++ more) "" "" none [] ∈
        matching (stem front [node (fragment ++ more) "" "" none []]) longer := by
      rw [matching_stem hlonger, List.mem_filter]
      exact ⟨List.mem_singleton_self _, fits_self _ _ _ _ _⟩
    have hkept := h _ hfound
    rw [matching_stem htyped, List.mem_filter] at hkept
    exact Text.contains_iff.mp hkept.2
  · intro h options
    have hinfix : (Text.lowercase fragment).toList <:+:
        (Text.lowercase (fragment ++ more)).toList := by
      by_cases hreopens : Text.Reopens fragment more
      · exact h hreopens
      · exact (Text.lowercase_prefix_iff.mpr hreopens).isInfix
    exact (matching_sublist htyped hlonger hinfix options).subset

/-- What is typed behind the sigma goes on with the word, but the word stands there again. -/
theorem matching_subset_sigma :
    Text.Reopens "ΑΣ" "ΒΑΣ" ∧
      ∀ options, matching options "Argument[0].ΑΣΒΑΣ" ⊆ matching options "Argument[0].ΑΣ" := by
  have htyped : texts "Argument[0].ΑΣ" = ["Argument[0]"] ++ ["ΑΣ"] := by decide
  have hlonger : texts "Argument[0].ΑΣΒΑΣ" = ["Argument[0]"] ++ ["ΑΣ" ++ "ΒΑΣ"] := by decide
  refine ⟨⟨⟨['Α'], [], rfl, by decide, List.forall_mem_nil _⟩, by decide⟩, ?_⟩
  exact (matching_subset_iff htyped hlonger).mpr fun _ => by decide

/-- `ΣΕΙΣΜΟΣ` is found when `ΣΕΙΣΜ` has been typed, and not when `ΣΕΙΣ` has, which ends in `ς`. -/
theorem matching_sigma :
    texts "Field[ΣΕΙΣ" = [] ++ ["Field[ΣΕΙΣ"] ∧
      texts "Field[ΣΕΙΣΜ" = [] ++ ["Field[ΣΕΙΣ" ++ "Μ"] ∧
      ¬ ∀ options, matching options "Field[ΣΕΙΣΜ" ⊆ matching options "Field[ΣΕΙΣ" := by
  have htyped : texts "Field[ΣΕΙΣ" = [] ++ ["Field[ΣΕΙΣ"] := by decide
  have hlonger : texts "Field[ΣΕΙΣΜ" = [] ++ ["Field[ΣΕΙΣ" ++ "Μ"] := by decide
  refine ⟨htyped, hlonger, fun h => ?_⟩
  let option := node "Field[ΣΕΙΣΜΟΣ]" "Field[ΣΕΙΣΜΟΣ]" "symbol-misc" none []
  have hfound : option ∈ matching (stem [] [option]) "Field[ΣΕΙΣΜ" := by
    rw [matching_stem hlonger, List.mem_filter]
    exact ⟨List.mem_singleton_self option, by decide⟩
  have hkept := h _ hfound
  rw [matching_stem htyped, List.mem_filter] at hkept
  exact absurd hkept.2 (by decide)

end Dataflow.Completion
