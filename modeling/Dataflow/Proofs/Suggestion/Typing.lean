import Dataflow.Proofs.AccessPath.Prefix
import Dataflow.Proofs.Suggestion.Matching
import Dataflow.Proofs.Text.Lowercase

/-!
# Typing the path of a row

A row whose ancestors have rows is found by typing its path, wherever the typing stops: the node of
the token that is being typed is among the completions.

Results:
* `Rooted.exists_row`: the first tokens of a rooted path are those of a row.
* `exists_mem_grown`: on the way to a rooted path each token has a node.
* `exists_mem_matching_of_prefix`: a prefix of a rooted path is completed by the tokens it begins.
-/

namespace Dataflow.Completion

open AccessPath

variable {rows : List SuggestionRow} {row : SuggestionRow} {front rest : List String}
  {token : String}

/-! ## The way to a rooted path -/

/-- The first tokens of a rooted path are those of a row. -/
theorem Rooted.exists_row (hdot : ∀ row ∈ rows, Undotted row.value) (hrow : row ∈ rows)
    (hrooted : Rooted rows row.value) (hne : front ≠ [])
    (htexts : texts row.value = front ++ rest) : ∃ above ∈ rows, texts above.value = front := by
  by_cases hrest : rest = []
  · exact ⟨row, hrow, by rw [htexts, hrest, List.append_nil]⟩
  have hinit : front ∈ (texts row.value).dropLast.inits := by
    rw [htexts, List.dropLast_append_of_ne_nil hrest, List.mem_inits]
    exact List.prefix_append _ _
  obtain ⟨above, habove, hvalue⟩ := hrooted.2 front hinit hne
  exact ⟨above, habove, by rw [hvalue, texts_join_front (hdot row hrow) htexts]⟩

theorem Rooted.paved (hdot : ∀ row ∈ rows, Undotted row.value) (hrow : row ∈ rows)
    (hrooted : Rooted rows row.value) (htexts : texts row.value = front ++ rest) :
    Paved rows [] front := by
  intro start hstart hne
  obtain ⟨back, rfl⟩ := (List.mem_inits start front).mp hstart
  rw [List.append_assoc] at htexts
  exact hrooted.exists_row hdot hrow hne htexts

/-- **On the way to a rooted path each token has a node.** -/
theorem exists_mem_grown (hdot : ∀ row ∈ rows, Undotted row.value) (hrow : row ∈ rows)
    (hrooted : Rooted rows row.value) (htexts : texts row.value = front ++ token :: rest) :
    ∃ option ∈ grown rows (join front),
      option.label = token ∧ option.value = join (front ++ [token]) := by
  have hfront := texts_join_front (hdot row hrow) htexts
  have hne : front ++ [token] ≠ [] := List.append_ne_nil_of_right_ne_nil _ (List.cons_ne_nil _ _)
  rw [List.append_cons] at htexts
  obtain ⟨above, habove, habovetexts⟩ := hrooted.exists_row hdot hrow hne htexts
  rw [← hfront] at habovetexts
  obtain ⟨option, hoption, rfl⟩ := exists_mem_of_row hdot habove habovetexts
  have hoptiontexts := (exists_row_of_mem hdot hoption).2
  rw [hfront] at hoptiontexts
  exact ⟨option, hoption, rfl, by rw [← hoptiontexts, join_texts]⟩

/-! ## What is typed -/

theorem take_begun (front rest : List String) (token fragment : String) :
    (front ++ token :: rest).take (max 1 (front ++ [fragment]).length) = front ++ [token] := by
  have hlength : max 1 (front ++ [fragment]).length = (front ++ [token]).length := by
    rw [List.length_append, List.length_append, List.length_singleton, List.length_singleton]
    omega
  rw [hlength, List.append_cons front token rest, List.take_left]

/-- A fragment that a token starts with fits the node of the token. -/
theorem fits_of_prefix {option : Completion} (hsigma : 'Σ' ∉ option.label.toList)
    {fragment : String} (hbegins : fragment.toList <+: option.label.toList) :
    fits fragment option = true :=
  Text.contains_iff.mpr (Text.lowercase_prefix hsigma hbegins).isInfix

/-- **A rooted path is found by typing it.** Wherever the typing stops, the tokens that have been
begun are a completion. -/
theorem exists_mem_matching_of_prefix (hdot : ∀ row ∈ rows, Undotted row.value) (hrow : row ∈ rows)
    (hrooted : Rooted rows row.value) (hsigma : 'Σ' ∉ row.value.toList) {typed : String}
    (htyped : typed.toList <+: row.value.toList) :
    ∃ option ∈ matching (forest rows) typed,
      option.value = join ((texts row.value).take (max 1 (texts typed).length)) := by
  by_cases hempty : typed = ""
  · subst hempty
    obtain ⟨token, rest, htexts⟩ := List.exists_cons_of_ne_nil (mt texts_eq_nil_iff.mp hrooted.1)
    have hway : texts row.value = [] ++ token :: rest := htexts
    obtain ⟨option, hoption, -, hvalue⟩ := exists_mem_grown hdot hrow hrooted hway
    rw [matching_empty, forest_eq, htexts]
    exact ⟨option, hoption, hvalue⟩
  obtain ⟨front, fragment, token, rest, hfragment, htexts, hbegins⟩ :=
    exists_texts_of_prefix htyped hempty
  obtain ⟨option, hoption, rfl, hvalue⟩ := exists_mem_grown hdot hrow hrooted htexts
  have hpaved := hrooted.paved hdot hrow htexts
  have htoken : 'Σ' ∉ option.label.toList := by
    have hmem : option.label ∈ texts row.value := by
      rw [htexts]
      exact List.mem_append_right _ List.mem_cons_self
    exact fun h => hsigma ((infix_of_mem_texts hmem).subset h)
  refine ⟨option, ?_, ?_⟩
  · rw [matching_of_texts hfragment, forest_eq, descend_grown hdot, texts_empty, if_pos hpaved,
      List.nil_append, Option.map_some, Option.getD_some, List.mem_filter]
    exact ⟨hoption, fits_of_prefix htoken hbegins⟩
  · rw [hvalue, htexts, hfragment, take_begun]

/-- Rows of a field of an argument, in no order and one of them twice, with a dot in brackets. -/
def fieldRows : List SuggestionRow :=
  [⟨"p#f", "Argument[0].Field[a.b].Element", "", .field⟩, ⟨"p#f", "Argument[0]", "", .parameter⟩,
    ⟨"p#f", "Argument[0].Field[a.b]", "d", .field⟩, ⟨"p#f", "Argument[0]", "", .parameter⟩]

/-- The typing stops behind the dot in brackets. -/
theorem exists_mem_matching_fieldRows :
    ∃ option ∈ matching (forest fieldRows) "Argument[0].Field[a.",
      option.value = "Argument[0].Field[a.b]" := by
  have hrow : (⟨"p#f", "Argument[0].Field[a.b].Element", "", .field⟩ : SuggestionRow) ∈ fieldRows :=
    List.mem_cons_self
  exact exists_mem_matching_of_prefix (by decide) hrow (by decide) (by decide) (by decide)

end Dataflow.Completion
