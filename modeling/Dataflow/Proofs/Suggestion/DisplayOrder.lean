import Dataflow.Proofs.Sorting
import Dataflow.Suggestion.Completion

/-!
# The display order of entries

What is seen of a node or a row is its entry. Entries are displayed in the order of their labels,
and those whose labels tie stay in the order they came in.

* `Entry`: a label, a path, an icon and the details. `Completion.entry` is what is seen of a node,
  `SuggestionRow.entry` what a row asks to be seen.
* `DisplayOrder listed shown`: the entries `listed` are displayed as `shown`.

Results:
* `displayOrder_mergeSort`: sorting by label gives the display order.
* `DisplayOrder.filter`: leaving entries out does not change the order of the others.
-/

namespace Dataflow

/-! ## The order of labels -/

namespace Label

instance : Std.TransCmp Label.compare :=
  inferInstanceAs (Std.TransCmp (compareLex _ _))

theorem compare_eq_eq_iff {a b : String} : compare a b = .eq ↔ a = b := by
  constructor
  · intro h
    simp only [compare, compareLex_eq_eq, compareOn] at h
    exact Std.LawfulEqCmp.eq_of_compare h.2.2.2
  · rintro rfl
    exact Std.ReflCmp.compare_self

theorem mayPrecede_iff {a b : String} : mayPrecede a b = true ↔ compare a b ≠ .gt := by
  unfold mayPrecede
  cases compare a b <;> simp

end Label

/-! ## Entries -/

/-- What is seen of a suggestion. -/
structure Entry where
  label : String
  value : String
  icon : String
  details : Option String
  deriving DecidableEq, Repr

/-- What is seen of a node. -/
def Completion.entry : Completion → Entry
  | .node label value icon details _ => ⟨label, value, icon, details⟩

/-- What a row asks to be seen: the last token of its path, the path, the icon of its kind and its
details, which are absent when they are empty. -/
def SuggestionRow.entry (row : SuggestionRow) : Entry where
  label := (AccessPath.texts row.value).getLast?.getD ""
  value := row.value
  icon := row.kind.icon
  details := if row.details = "" then none else some row.details

theorem Completion.entry_label (option : Completion) : option.entry.label = option.label := by
  cases option
  rfl

theorem Completion.entry_value (option : Completion) : option.entry.value = option.value := by
  cases option
  rfl

theorem Completion.entry_withFollowup (followup : List Completion) (option : Completion) :
    (option.withFollowup followup).entry = option.entry := by
  cases option
  rfl

/-! ## Display order -/

/-- An entry may stand before another. -/
def Entry.mayPrecede (a b : Entry) : Bool :=
  Label.mayPrecede a.label b.label

theorem Entry.mayPrecede_eq (a b : Entry) :
    a.mayPrecede b = (Label.compare a.label b.label).isLE := rfl

/-- The label of an entry ties with a label. -/
def Entry.ties (label : String) (entry : Entry) : Bool :=
  Label.compare entry.label label == .eq

/-- The entries `listed` are displayed as `shown`. -/
structure DisplayOrder (listed shown : List Entry) : Prop where
  /-- No entry is lost and none repeated. -/
  perm : shown.Perm listed
  /-- The labels are in order. -/
  sorted : shown.Pairwise fun a b => Label.compare a.label b.label ≠ .gt
  /-- Entries whose labels tie stay in the order of the list. -/
  stable : ∀ label, shown.filter (Entry.ties label) = listed.filter (Entry.ties label)

theorem DisplayOrder.nil : DisplayOrder [] [] :=
  ⟨List.Perm.refl _, List.Pairwise.nil, fun _ => rfl⟩

/-- **Leaving entries out** does not change the order of the others. -/
theorem DisplayOrder.filter {listed shown : List Entry} (h : DisplayOrder listed shown)
    (p : Entry → Bool) : DisplayOrder (listed.filter p) (shown.filter p) where
  perm := h.perm.filter p
  sorted := h.sorted.filter p
  stable label := by
    rw [List.filter_comm, h.stable label, List.filter_comm]

/-- **Sorting by label** gives the display order. -/
theorem displayOrder_mergeSort (listed : List Entry) :
    DisplayOrder listed (listed.mergeSort Entry.mayPrecede) where
  perm := List.mergeSort_perm _ _
  sorted :=
    (Sorting.pairwise_mergeSort Entry.mayPrecede_eq listed).imp Label.mayPrecede_iff.mp
  stable label := Sorting.filter_mergeSort Entry.mayPrecede_eq label listed

end Dataflow
