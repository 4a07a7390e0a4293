import Dataflow.Proofs.Keyed
import Dataflow.Proofs.Suggestion.Matching

/-!
# The order in which suggestion rows arrive

The rows of one method with distinct paths make one forest, in whatever order they arrive: siblings
have distinct labels, so the display order leaves no choice. The forest of a method is made of its
own rows only.

Results:
* `under_of_perm`: the children of a path are shown alike.
* `forest_of_perm`: the forest of one method is the same.
* `forests_exact`: the forests of all methods, and what they depend on.
-/

namespace Dataflow

instance : Std.LawfulEqCmp Label.compare where
  eq_of_compare := Label.compare_eq_eq_iff.mp

namespace Completion

open AccessPath

variable {rows rows' : List SuggestionRow}

/-! ## One method -/

/-- The rows of a list have distinct paths. -/
def PathsDistinct (rows : List SuggestionRow) : Prop :=
  ∀ a ∈ rows, ∀ b ∈ rows, a.value = b.value → a = b

/-- Siblings with one label are one row. -/
theorem PathsDistinct.of_label (hdistinct : PathsDistinct rows)
    (hdot : ∀ row ∈ rows, Undotted row.value) {parent : String} {a b : SuggestionRow}
    (ha : a ∈ children rows parent) (hb : b ∈ children rows parent)
    (hlabel : a.entry.label = b.entry.label) : a = b := by
  obtain ⟨harow, hatexts⟩ := (mem_children_iff hdot).mp ha
  obtain ⟨hbrow, hbtexts⟩ := (mem_children_iff hdot).mp hb
  refine hdistinct a harow b hbrow (texts_inj.mp ?_)
  rw [hatexts, hbtexts, hlabel]

/-- **The children of a path are shown alike** in whatever order the rows arrive. -/
theorem under_of_perm (hperm : rows.Perm rows') (hdistinct : PathsDistinct rows)
    (hdot : ∀ row ∈ rows, Undotted row.value) (parent : String) :
    under (placed rows) parent = under (placed rows') parent := by
  have hchildren : (children rows parent).Perm (children rows' parent) := hperm.filter _
  rw [under_eq, under_eq]
  refine Sorting.mergeSort_congr mayPrecede_eq ?_ (hchildren.map ofRow)
  intro x hx y hy hlabel
  obtain ⟨a, ha, rfl⟩ := List.mem_map.mp hx
  obtain ⟨b, hb, rfl⟩ := List.mem_map.mp hy
  rw [hdistinct.of_label hdot ha hb hlabel]

/-- **The forest of one method is the same** in whatever order its rows arrive. -/
theorem forest_of_perm (hperm : rows.Perm rows') (hdistinct : PathsDistinct rows)
    (hdot : ∀ row ∈ rows, Undotted row.value) : forest rows = forest rows' := by
  rw [forest_eq, forest_eq]
  exact grown_congr (fun _ => True) (fun _ _ _ _ => trivial)
    (fun parent _ => under_of_perm hperm hdistinct hdot parent) trivial

/-! ## All methods -/

theorem pathsDistinct_of_nodup (hnodup : (rows.map fun row => (row.signature, row.value)).Nodup)
    (signature : String) : PathsDistinct (rows.filter fun row => row.signature == signature) := by
  intro a ha b hb hvalue
  obtain ⟨harow, hasignature⟩ := List.mem_filter.mp ha
  obtain ⟨hbrow, hbsignature⟩ := List.mem_filter.mp hb
  refine List.inj_on_of_nodup_map hnodup harow hbrow (Prod.ext ?_ hvalue)
  exact (beq_iff_eq.mp hasignature).trans (beq_iff_eq.mp hbsignature).symm

theorem forests_eq (rows : List SuggestionRow) :
    forests rows = (Keyed.sortedKeys (rows.map SuggestionRow.signature)).map fun signature =>
      (signature, forest (rows.filter fun row => row.signature == signature)) := by
  unfold forests Keyed.group
  rw [List.map_map]
  rfl

theorem forests_of_perm (hperm : rows.Perm rows')
    (hnodup : (rows.map fun row => (row.signature, row.value)).Nodup)
    (hdot : ∀ row ∈ rows, Undotted row.value) : forests rows = forests rows' := by
  have hsignatures : Keyed.sortedKeys (rows.map SuggestionRow.signature) =
      Keyed.sortedKeys (rows'.map SuggestionRow.signature) :=
    Keyed.sortedKeys_congr fun _ => (hperm.map SuggestionRow.signature).mem_iff
  rw [forests_eq, forests_eq, ← hsignatures]
  refine List.map_congr_left fun signature _ => Prod.ext rfl ?_
  exact forest_of_perm (hperm.filter _) (pathsDistinct_of_nodup hnodup signature) fun row hrow =>
    hdot row (List.mem_filter.mp hrow).1

/-- **The forests of all methods.** There is one for each signature that occurs, made of the rows
that have it. When the rows of each method have distinct paths, none of which starts with a dot, the
order they arrive in does not matter. -/
theorem forests_exact (rows : List SuggestionRow) :
    ((rows.map fun row => (row.signature, row.value)).Nodup →
      (∀ row ∈ rows, Undotted row.value) →
        ∀ rows' : List SuggestionRow, rows.Perm rows' → forests rows = forests rows') ∧
      Keyed.Ordered (forests rows) ∧
      ∀ signature, (forests rows).get? signature =
        if signature ∈ rows.map SuggestionRow.signature then
          some (forest (rows.filter fun row => row.signature == signature))
        else none := by
  refine ⟨fun hnodup hdot rows' hperm => forests_of_perm hperm hnodup hdot, ?_, fun signature => ?_⟩
  · unfold Keyed.Ordered forests
    rw [Keyed.keys_map_value]
    exact Keyed.ordered_group SuggestionRow.signature rows
  · unfold forests
    rw [Keyed.get?_map_value, Keyed.get?_group]
    split_ifs <;> rfl

/-- Rows of two methods, one of which has a path of the other. -/
def loggerRows : List SuggestionRow :=
  [⟨"Logger#info", "Argument[0].Element", "", .field⟩,
    ⟨"Logger#warn", "Argument[0]", "", .parameter⟩,
    ⟨"Logger#info", "Argument[0]", "message", .parameter⟩]

theorem forests_loggerRows : forests loggerRows = forests loggerRows.reverse :=
  (forests_exact loggerRows).1 (by decide) (by decide) loggerRows.reverse
    loggerRows.reverse_perm.symm

end Completion

end Dataflow
