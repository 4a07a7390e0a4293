import Dataflow.Proofs.AccessPath.Cut
import Dataflow.Proofs.Suggestion.DisplayOrder

/-!
# The forest of suggestion rows, level by level

`forest` grows nodes to as many levels as there are rows. No path has more paths above it, so the
bound can be left out: what grows below a path is its children, each with what grows below it.

* `IsValue rows path`: a row has the path, and the path is not empty.
* `children rows parent`: the rows whose path has one token more than `parent`.
* `grown rows parent`: what grows below a path.

Results:
* `displayOrder_under`: the children of a path are shown in display order.
* `grow_eq_grow`: enough levels are as good as more.
* `grown_eq`: the equation of `grown`, which has no bound.
* `grown_congr`: what grows is determined by the children on the way.
* `followup_attach`: of siblings with one path the first has all that grows below it, the others
  have nothing.
-/

namespace Dataflow.Completion

open AccessPath

/-! ## Parents and children -/

/-- A row has this path, and the path is not empty. -/
def IsValue (rows : List SuggestionRow) (path : String) : Prop :=
  path ≠ "" ∧ ∃ row ∈ rows, row.value = path

instance (rows : List SuggestionRow) (path : String) : Decidable (IsValue rows path) :=
  inferInstanceAs (Decidable (_ ∧ _))

/-- The rows whose path belongs under `parent`. -/
def children (rows : List SuggestionRow) (parent : String) : List SuggestionRow :=
  rows.filter fun row => row.value ≠ "" ∧ parentOf row.value = parent

theorem mem_children {rows : List SuggestionRow} {parent : String} {row : SuggestionRow} :
    row ∈ children rows parent ↔ row ∈ rows ∧ row.value ≠ "" ∧ parentOf row.value = parent := by
  unfold children
  rw [List.mem_filter, decide_eq_true_eq]

theorem parentOf_of_texts {path last : String} {front : List String}
    (h : texts path = front ++ [last]) : parentOf path = join front := by
  unfold parentOf
  rw [h, List.dropLast_concat]

theorem label_of_texts {row : SuggestionRow} {last : String} {front : List String}
    (h : texts row.value = front ++ [last]) : row.entry.label = last := by
  unfold SuggestionRow.entry
  rw [h, List.getLast?_concat, Option.getD_some]

/-- **A path is longer than its parent.** -/
theorem length_parentOf_lt {path : String} (h : path ≠ "") :
    (parentOf path).length < path.length := by
  have hjoin := join_texts path
  obtain ⟨front, last, htexts⟩ := exists_texts_eq_concat h
  rw [parentOf_of_texts htexts]
  rw [htexts] at hjoin
  by_cases hfront : front = []
  · subst hfront
    have hlen : path.length ≠ 0 := fun h0 => h (String.length_eq_zero_iff.mp h0)
    rw [show join [] = "" from rfl, String.length_empty]
    omega
  · rw [join_append hfront (List.cons_ne_nil _ _)] at hjoin
    rw [← hjoin, String.length_append, String.length_append, show ".".length = 1 from rfl]
    omega

/-! ## One level -/

theorem placed_filter (rows : List SuggestionRow) (parent : String) :
    ((placed rows).filter fun entry => entry.1 == parent).map Prod.snd =
      (children rows parent).map ofRow := by
  unfold placed children
  rw [List.filter_map, List.map_map, List.filter_filter]
  congr 1
  apply List.filter_congr
  intro row _
  rw [Bool.eq_iff_iff]
  simp [and_comm]

theorem mem_under {rows : List SuggestionRow} {parent : String} {option : Completion} :
    option ∈ under (placed rows) parent ↔ ∃ row ∈ children rows parent, ofRow row = option := by
  unfold under
  rw [List.mem_mergeSort, placed_filter, List.mem_map]

/-- A node may stand before another. -/
def mayPrecede (a b : Completion) : Bool :=
  Label.mayPrecede a.label b.label

theorem mayPrecede_eq (a b : Completion) :
    a.mayPrecede b = (Label.compare a.label b.label).isLE := rfl

theorem under_eq (rows : List SuggestionRow) (parent : String) :
    under (placed rows) parent = ((children rows parent).map ofRow).mergeSort mayPrecede := by
  unfold under
  rw [placed_filter]
  rfl

theorem map_entry_under (rows : List SuggestionRow) (parent : String) :
    (under (placed rows) parent).map entry =
      ((children rows parent).map SuggestionRow.entry).mergeSort Entry.mayPrecede := by
  unfold under
  rw [placed_filter, List.map_mergeSort (s := Entry.mayPrecede), List.map_map]
  · rfl
  · intro a _ b _
    unfold Entry.mayPrecede
    rw [entry_label, entry_label]

/-- **The children of a path are shown in display order.** -/
theorem displayOrder_under (rows : List SuggestionRow) (parent : String) :
    DisplayOrder ((children rows parent).map SuggestionRow.entry)
      ((under (placed rows) parent).map entry) := by
  rw [map_entry_under]
  exact displayOrder_mergeSort _

theorem value_ofRow (row : SuggestionRow) : (ofRow row).value = row.value := rfl

theorem value_withFollowup (followup : List Completion) (option : Completion) :
    (option.withFollowup followup).value = option.value := by
  cases option
  rfl

theorem followup_withFollowup (followup : List Completion) (option : Completion) :
    (option.withFollowup followup).followup = followup := by
  cases option
  rfl

theorem map_entry_attach (grow : String → List Completion) :
    ∀ (seen : List String) (options : List Completion),
      (attach grow seen options).map entry = options.map entry
  | _, [] => rfl
  | seen, option :: options => by
    rw [attach, List.map_cons, List.map_cons, entry_withFollowup, map_entry_attach grow]

theorem attach_congr {grow grow' : String → List Completion} :
    ∀ {seen : List String} {options : List Completion},
      (∀ option ∈ options, grow option.value = grow' option.value) →
        attach grow seen options = attach grow' seen options
  | _, [], _ => rfl
  | seen, option :: options, h => by
    rw [attach, attach, h option List.mem_cons_self,
      attach_congr fun option' hmem => h option' (List.mem_cons_of_mem _ hmem)]

/-- **Of siblings with one path the first has all that grows below it**, the others have nothing. -/
theorem followup_attach {grow : String → List Completion} :
    ∀ {seen : List String} {options front back : List Completion} {child : Completion},
      attach grow seen options = front ++ child :: back →
        child.followup =
          if child.value ∈ seen ∨ child.value ∈ front.map value then [] else grow child.value
  | _, [], front, back, child, h => by simp [attach] at h
  | seen, option :: options, [], back, child, h => by
    rw [attach, List.nil_append] at h
    obtain ⟨rfl, -⟩ := List.cons.inj h
    rw [followup_withFollowup, value_withFollowup]
    simp
  | seen, option :: options, first :: front, back, child, h => by
    rw [attach, List.cons_append] at h
    obtain ⟨rfl, htail⟩ := List.cons.inj h
    rw [followup_attach htail, List.map_cons, value_withFollowup]
    simp only [List.mem_cons]
    congr 1
    apply propext
    tauto

/-! ## All levels -/

/-- The rows whose path is longer than `path`. -/
def longer (rows : List SuggestionRow) (path : String) : Nat :=
  rows.countP fun row => path.length < row.value.length

/-- A child has fewer longer rows than its parent. -/
theorem longer_child_lt {rows : List SuggestionRow} {parent : String} {row : SuggestionRow}
    (h : row ∈ children rows parent) : longer rows row.value < longer rows parent := by
  obtain ⟨hmem, hne, rfl⟩ := mem_children.mp h
  have hlen := length_parentOf_lt hne
  have hmono : ∀ rest : List SuggestionRow,
      longer rest row.value ≤ longer rest (parentOf row.value) := fun rest =>
    List.countP_mono_left fun other _ hother => by
      rw [decide_eq_true_eq] at hother ⊢
      omega
  -- The row itself is longer than its parent and not than itself.
  obtain ⟨front, back, rfl⟩ := List.append_of_mem hmem
  have hfront := hmono front
  have hback := hmono back
  unfold longer at hfront hback ⊢
  simp only [List.countP_append, List.countP_cons, decide_eq_true_eq, Nat.lt_irrefl, if_false, hlen,
    if_true]
  omega

theorem under_eq_nil {rows : List SuggestionRow} {parent : String} (h : longer rows parent = 0) :
    under (placed rows) parent = [] := by
  rw [List.eq_nil_iff_forall_not_mem]
  intro option hoption
  obtain ⟨row, hrow, -⟩ := mem_under.mp hoption
  have hlt := longer_child_lt hrow
  omega

/-- **Enough levels are as good as more.** -/
theorem grow_eq_grow {rows : List SuggestionRow} : ∀ {n m : Nat} {parent : String},
    longer rows parent ≤ n → longer rows parent ≤ m →
      grow (placed rows) n parent = grow (placed rows) m parent
  | 0, 0, _, _, _ => rfl
  | 0, m + 1, parent, hn, _ => by
    rw [grow, grow, under_eq_nil (by omega), attach]
  | n + 1, 0, parent, _, hm => by
    rw [grow, grow, under_eq_nil (by omega), attach]
  | n + 1, m + 1, parent, hn, hm => by
    rw [grow, grow]
    refine attach_congr fun option hoption => ?_
    obtain ⟨row, hrow, rfl⟩ := mem_under.mp hoption
    have hlt := longer_child_lt hrow
    exact grow_eq_grow (by rw [value_ofRow]; omega) (by rw [value_ofRow]; omega)

/-- What grows below a path. -/
def grown (rows : List SuggestionRow) (parent : String) : List Completion :=
  grow (placed rows) rows.length parent

theorem forest_eq (rows : List SuggestionRow) : forest rows = grown rows "" := rfl

/-- **What grows below a path is its children**, each with what grows below it. -/
theorem grown_eq (rows : List SuggestionRow) (parent : String) :
    grown rows parent = attach (grown rows) [] (under (placed rows) parent) := by
  have hlen : ∀ path, longer rows path ≤ rows.length := fun path => List.countP_le_length
  unfold grown
  rw [grow_eq_grow (hlen parent) (Nat.le_succ_of_le (hlen parent))]
  rfl

/-- **What grows is determined by the children on the way**: rows make one forest below the paths of
a family that is closed under children, when they show the same nodes under each of its paths. -/
theorem grown_congr {rows rows' : List SuggestionRow} (family : String → Prop)
    (hclosed : ∀ parent, family parent → ∀ row ∈ children rows parent, family row.value)
    (hunder : ∀ parent, family parent →
      under (placed rows) parent = under (placed rows') parent) {parent : String}
    (h : family parent) : grown rows parent = grown rows' parent := by
  rw [grown_eq, grown_eq, ← hunder parent h]
  refine attach_congr fun option hoption => ?_
  obtain ⟨row, hrow, rfl⟩ := mem_under.mp hoption
  have hlt := longer_child_lt hrow
  exact grown_congr family hclosed hunder (hclosed parent h row hrow)
termination_by longer rows parent

end Dataflow.Completion
