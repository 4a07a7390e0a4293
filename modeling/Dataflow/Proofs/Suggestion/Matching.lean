import Dataflow.Proofs.Suggestion.Rooted
import Mathlib.Data.List.Infix

/-!
# What completes a typed path

`matching` walks down the forest by labels. What it finds can be read off the rows, without a
forest, as long as no path starts with a dot.

* `Rooted rows path`: rows have the paths of all tokens in front.
* `Completes rows typed path`: the tokens before the last are the typed ones, and the last one
  contains the typed fragment.

Results:
* `reached_iff_rooted`: such rows are those that reach the top.
* `descend_grown`: where the walk down the labels leads, and when it leads nowhere.
* `matching_forest`: the nodes that complete a typed path are the rows whose path completes it, and
  the rooted rows are those of the forest.
-/

namespace Dataflow

namespace Text

theorem isInfix_iff {needle : List Char} :
    ∀ {cs : List Char}, isInfix needle cs = true ↔ needle <:+: cs
  | [] => by rw [isInfix, List.isEmpty_iff, List.infix_nil]
  | c :: cs => by
    rw [isInfix, Bool.or_eq_true, List.isPrefixOf_iff_prefix, isInfix_iff, List.infix_cons_iff]

theorem contains_iff {needle text : String} :
    contains needle text = true ↔ needle.toList <:+: text.toList :=
  isInfix_iff

end Text

/-- The label of an entry contains a fragment when both are in lower case. -/
def Entry.fits (fragment : String) (entry : Entry) : Bool :=
  Text.contains (Text.lowercase fragment) (Text.lowercase entry.label)

namespace Completion

open AccessPath

/-! ## Rows that complete a path -/

/-- Each path made of some of the first tokens, but not all of them, is the path of a row. -/
def Rooted (rows : List SuggestionRow) (path : String) : Prop :=
  path ≠ "" ∧
    ∀ front ∈ (texts path).dropLast.inits, front ≠ [] → ∃ above ∈ rows, above.value = join front

instance (rows : List SuggestionRow) (path : String) : Decidable (Rooted rows path) :=
  inferInstanceAs (Decidable (_ ∧ _))

/-- A path completes what is typed: the tokens before the last are the same, and the last one
contains the last typed one, upper and lower case being the same. Nothing typed is completed by
single tokens. -/
def Completes (rows : List SuggestionRow) (typed path : String) : Prop :=
  if typed = "" then (texts path).length = 1
  else
    Rooted rows path ∧ (texts path).dropLast = (texts typed).dropLast ∧
      (Text.lowercase ((texts typed).getLast?.getD "")).toList <:+:
        (Text.lowercase ((texts path).getLast?.getD "")).toList

instance (rows : List SuggestionRow) (typed path : String) :
    Decidable (Completes rows typed path) :=
  inferInstanceAs (Decidable (ite _ _ _))

variable {rows : List SuggestionRow}

/-! ## One step of the walk -/

theorem texts_parentOf {path : String} (hdot : Undotted path) :
    texts (parentOf path) = (texts path).dropLast := by
  rcases List.eq_nil_or_concat' (texts path) with hnil | ⟨front, last, htexts⟩
  · unfold parentOf
    rw [hnil]
    rfl
  · have hfront := texts_join_front hdot htexts
    rwa [parentOf_of_texts htexts, htexts, List.dropLast_concat]

/-- **A child has the tokens of its parent and one more**, which is the label. -/
theorem isChild_iff {row : SuggestionRow} (hdot : Undotted row.value) {parent : String} :
    row.value ≠ "" ∧ parentOf row.value = parent ↔
      texts row.value = texts parent ++ [row.entry.label] := by
  have hparent : parentOf row.value = parent ↔ (texts row.value).dropLast = texts parent := by
    rw [← texts_parentOf hdot, texts_inj]
  rw [hparent, ne_eq, ← texts_eq_nil_iff]
  unfold SuggestionRow.entry
  rcases List.eq_nil_or_concat' (texts row.value) with hnil | ⟨front, last, htexts⟩
  · rw [hnil]
    simp
  · rw [htexts]
    simp

theorem mem_children_iff (hdot : ∀ row ∈ rows, Undotted row.value) {parent : String}
    {row : SuggestionRow} :
    row ∈ children rows parent ↔
      row ∈ rows ∧ texts row.value = texts parent ++ [row.entry.label] := by
  rw [mem_children]
  exact and_congr_right fun hrow => isChild_iff (hdot row hrow)

/-- A node that grows below a path has the path of a row, with its label for the last token. -/
theorem exists_row_of_mem (hdot : ∀ row ∈ rows, Undotted row.value) {parent : String}
    {node : Completion} (h : node ∈ grown rows parent) :
    (∃ row ∈ rows, row.value = node.value) ∧ texts node.value = texts parent ++ [node.label] := by
  obtain ⟨row, hrow, heq⟩ := exists_mem_children h
  obtain ⟨hmem, htexts⟩ := (mem_children_iff hdot).mp hrow
  have hvalue := value_of_entry heq
  exact ⟨⟨row, hmem, hvalue⟩, by rw [← hvalue, htexts, heq, entry_label]⟩

theorem exists_mem_of_row (hdot : ∀ row ∈ rows, Undotted row.value) {parent label : String}
    {row : SuggestionRow} (hrow : row ∈ rows) (htexts : texts row.value = texts parent ++ [label]) :
    ∃ node ∈ grown rows parent, node.label = label := by
  have hlabel := label_of_texts htexts
  have hchild : row ∈ children rows parent :=
    (mem_children_iff hdot).mpr ⟨hrow, by rw [hlabel, htexts]⟩
  have hentry := (displayOrder_grown rows parent).perm.mem_iff.mpr (List.mem_map_of_mem hchild)
  obtain ⟨node, hnode, heq⟩ := List.mem_map.mp hentry
  exact ⟨node, hnode, by rw [← entry_label, heq, hlabel]⟩

/-- Without a row for it, no label is found. -/
theorem find?_grown_eq_none (hdot : ∀ row ∈ rows, Undotted row.value) {parent label : String}
    (h : ¬ ∃ row ∈ rows, texts row.value = texts parent ++ [label]) :
    (grown rows parent).find? (fun option => option.label == label) = none := by
  rw [List.find?_eq_none]
  intro node hnode hlabel
  obtain ⟨⟨row, hrow, hvalue⟩, htexts⟩ := exists_row_of_mem hdot hnode
  exact h ⟨row, hrow, by rw [hvalue, htexts, beq_iff_eq.mp hlabel]⟩

/-- **The first node of a label has all that grows below its path.** -/
theorem find?_grown (hdot : ∀ row ∈ rows, Undotted row.value) {parent label : String}
    {row : SuggestionRow} (hrow : row ∈ rows) (htexts : texts row.value = texts parent ++ [label]) :
    ∃ node, (grown rows parent).find? (fun option => option.label == label) = some node ∧
      node.followup = grown rows row.value := by
  cases hfind : (grown rows parent).find? (fun option => option.label == label) with
  | none =>
    obtain ⟨node, hnode, hlabel⟩ := exists_mem_of_row hdot hrow htexts
    exact absurd (beq_iff_eq.mpr hlabel) (List.find?_eq_none.mp hfind node hnode)
  | some node =>
    obtain ⟨hlabel, front, back, hgrown, hfront⟩ := List.find?_eq_some_iff_append.mp hfind
    have hnode := (exists_row_of_mem hdot (List.mem_of_find?_eq_some hfind)).2
    rw [beq_iff_eq.mp hlabel, ← htexts] at hnode
    have hvalue := texts_inj.mp hnode
    refine ⟨node, rfl, ?_⟩
    rw [followup_grown hgrown, hvalue, if_neg]
    -- A node before it with its path would have its label.
    intro hin
    obtain ⟨first, hfirst, hsame⟩ := List.mem_map.mp hin
    have hmem : first ∈ grown rows parent := hgrown ▸ List.mem_append_left _ hfirst
    have hfirsttexts := (exists_row_of_mem hdot hmem).2
    rw [hsame, htexts] at hfirsttexts
    have hfirstlabel := List.singleton_inj.mp (List.append_cancel_left hfirsttexts)
    have hnot := hfront first hfirst
    rw [← hfirstlabel] at hnot
    simp at hnot

/-! ## The walk -/

/-- Rows have all the paths that a walk from `top` down the labels comes through. -/
def Paved (rows : List SuggestionRow) (top labels : List String) : Prop :=
  ∀ front ∈ labels.inits, front ≠ [] → ∃ row ∈ rows, texts row.value = top ++ front

instance (rows : List SuggestionRow) (top labels : List String) :
    Decidable (Paved rows top labels) :=
  inferInstanceAs (Decidable (∀ front ∈ labels.inits, _))

theorem paved_nil (top : List String) : Paved rows top [] := by
  intro front hfront hne
  exact absurd (List.mem_singleton.mp hfront) hne

theorem paved_cons {top labels : List String} {label : String} :
    Paved rows top (label :: labels) ↔
      (∃ row ∈ rows, texts row.value = top ++ [label]) ∧ Paved rows (top ++ [label]) labels := by
  unfold Paved
  rw [List.inits_cons]
  simp only [List.mem_cons, List.mem_map, forall_eq_or_imp, ne_eq, not_true_eq_false, false_imp_iff,
    true_and, forall_exists_index, and_imp, forall_apply_eq_imp_iff₂, List.append_assoc,
    List.singleton_append, reduceCtorEq, not_false_eq_true, forall_const]
  constructor
  · intro h
    exact ⟨h [] (by simp), fun front hfront _ => h front hfront⟩
  · rintro ⟨hlabel, h⟩ front hfront
    by_cases hne : front = []
    · rwa [hne]
    · exact h front hfront hne

/-- **Where the walk down the labels leads**: to what grows below the path of the labels, when it is
paved, and nowhere otherwise. -/
theorem descend_grown (hdot : ∀ row ∈ rows, Undotted row.value) :
    ∀ (parent : String) (labels : List String),
      descend (grown rows parent) labels =
        if Paved rows (texts parent) labels then some (grown rows (join (texts parent ++ labels)))
        else none
  | parent, [] => by
    rw [descend, if_pos (paved_nil _), List.append_nil, join_texts]
  | parent, label :: labels => by
    rw [descend]
    by_cases hstep : ∃ row ∈ rows, texts row.value = texts parent ++ [label]
    · obtain ⟨row, hrow, htexts⟩ := hstep
      obtain ⟨node, hfind, hfollowup⟩ := find?_grown hdot hrow htexts
      rw [hfind]
      simp only []
      rw [hfollowup, descend_grown hdot row.value labels, htexts, List.append_assoc,
        List.singleton_append]
      exact if_congr (by rw [paved_cons, and_iff_right ⟨row, hrow, htexts⟩]) rfl rfl
    · rw [find?_grown_eq_none hdot hstep, if_neg fun h => hstep (paved_cons.mp h).1]

theorem matching_empty (options : List Completion) : matching options "" = options := rfl

theorem matching_of_texts {options : List Completion} {typed fragment : String}
    {front : List String} (h : texts typed = front ++ [fragment]) :
    matching options typed =
      ((descend options front).map fun reached => reached.filter (fits fragment)).getD [] := by
  unfold matching
  simp only [h, List.dropLast_concat, List.getLast?_concat]
  cases descend options front <;> rfl

/-! ## What is found -/

theorem map_entry_filter (fragment : String) (options : List Completion) :
    (options.filter (fits fragment)).map entry =
      (options.map entry).filter (Entry.fits fragment) := by
  rw [List.filter_map]
  refine congrArg (List.map entry) (List.filter_congr fun option _ => ?_)
  rw [Function.comp_apply, fits, Entry.fits, entry_label]

/-- What is rooted is what the walk reaches. -/
theorem rooted_iff {path : String} {front : List String} {label : String} (hdot : Undotted path)
    (h : texts path = front ++ [label]) : Rooted rows path ↔ Paved rows [] front := by
  unfold Rooted Paved
  rw [and_iff_right (ne_empty_of_texts h), h, List.dropLast_concat]
  refine forall₂_congr fun start hstart => imp_congr_right fun _ => ?_
  refine exists_congr fun row => and_congr_right fun _ => ?_
  obtain ⟨rest, rfl⟩ := (List.mem_inits start front).mp hstart
  rw [List.append_assoc] at h
  have hjoin := texts_join_front hdot h
  rw [List.nil_append, ← texts_inj, hjoin]

theorem paved_concat {front : List String} {label : String} :
    Paved rows [] (front ++ [label]) ↔
      Paved rows [] front ∧ ∃ row ∈ rows, texts row.value = front ++ [label] := by
  unfold Paved
  simp only [List.mem_inits, List.prefix_concat_iff, List.nil_append]
  constructor
  · intro h
    exact ⟨fun start hstart => h start (Or.inr hstart), h _ (Or.inl rfl) (by simp)⟩
  · rintro ⟨hfront, hlabel⟩ start (rfl | hstart) hne
    · exact hlabel
    · exact hfront start hstart hne

/-- **The rows that reach the top are the rooted ones.** -/
theorem reached_iff_rooted (hdot : ∀ row ∈ rows, Undotted row.value) {path : String}
    (hvalue : IsValue rows path) : Reached rows "" path ↔ Rooted rows path := by
  have hundotted : ∀ {path}, IsValue rows path → Undotted path := by
    rintro _ ⟨-, row, hrow, rfl⟩
    exact hdot row hrow
  have hparent := texts_parentOf (hundotted hvalue)
  obtain ⟨front, label, htexts⟩ := exists_texts_eq_concat hvalue.1
  rw [rooted_iff (hundotted hvalue) htexts, reached_iff, and_iff_right hvalue]
  rw [htexts, List.dropLast_concat] at hparent
  rcases List.eq_nil_or_concat' front with rfl | ⟨start, last, rfl⟩
  · exact iff_of_true (Or.inl (texts_eq_nil_iff.mp hparent)) (paved_nil [])
  have hne := ne_empty_of_texts hparent
  have hshorter := length_parentOf_lt hvalue.1
  rw [or_iff_right hne, paved_concat]
  constructor
  · intro hreached
    have hpaved := (reached_iff_rooted hdot hreached.isValue).mp hreached
    obtain ⟨-, row, hrow, hsame⟩ := hreached.isValue
    rw [rooted_iff (hundotted hreached.isValue) hparent] at hpaved
    exact ⟨hpaved, row, hrow, by rw [hsame, hparent]⟩
  · rintro ⟨hpaved, row, hrow, hsame⟩
    have hparentvalue : IsValue rows (parentOf path) :=
      ⟨hne, row, hrow, texts_inj.mp (hsame.trans hparent.symm)⟩
    refine (reached_iff_rooted hdot hparentvalue).mpr ?_
    exact (rooted_iff (hundotted hparentvalue) hparent).mpr hpaved
termination_by path.length

theorem Paved.texts_join {front : List String} (h : Paved rows [] front) :
    texts (join front) = front := by
  by_cases hfront : front = []
  · subst hfront
    rfl
  · obtain ⟨row, -, htexts⟩ := h front ((List.mem_inits front front).mpr List.prefix_rfl) hfront
    rw [List.nil_append] at htexts
    rw [← htexts, AccessPath.join_texts]

/-- A row completes what is typed when the way is paved and its last token fits. -/
theorem completes_iff {row : SuggestionRow} (hdot : Undotted row.value) {typed fragment : String}
    {front : List String} (htyped : texts typed = front ++ [fragment]) :
    Completes rows typed row.value ↔
      Paved rows [] front ∧ texts row.value = front ++ [row.entry.label] ∧
        row.entry.fits fragment = true := by
  unfold Completes Entry.fits SuggestionRow.entry
  rw [if_neg (ne_empty_of_texts htyped), htyped, List.dropLast_concat, List.getLast?_concat,
    Option.getD_some, Text.contains_iff]
  rcases List.eq_nil_or_concat' (texts row.value) with hnil | ⟨start, label, htexts⟩
  · rw [hnil]
    constructor
    · intro h
      exact absurd (texts_eq_nil_iff.mp hnil) h.1.1
    · rintro ⟨-, h, -⟩
      simp at h
  · rw [rooted_iff hdot htexts, htexts, List.dropLast_concat, List.getLast?_concat,
      Option.getD_some, List.append_cancel_right_eq]
    constructor
    · rintro ⟨hpaved, rfl, hfits⟩
      exact ⟨hpaved, rfl, hfits⟩
    · rintro ⟨hpaved, rfl, hfits⟩
      exact ⟨hpaved, rfl, hfits⟩

/-- Nothing typed is completed by the children of the empty path. -/
theorem filter_completes_empty (hdot : ∀ row ∈ rows, Undotted row.value) :
    rows.filter (Completes rows "" ·.value) = children rows "" := by
  refine List.filter_congr fun row hrow => ?_
  rw [Bool.eq_iff_iff, decide_eq_true_eq, decide_eq_true_eq, isChild_iff (hdot row hrow)]
  unfold Completes
  rw [if_pos rfl, texts_empty, List.nil_append, List.length_eq_one_iff]
  constructor
  · rintro ⟨label, hlabel⟩
    unfold SuggestionRow.entry
    rw [hlabel]
    rfl
  · intro h
    exact ⟨_, h⟩

/-- On a paved way, what is typed is completed by the children whose label fits. -/
theorem filter_completes_paved (hdot : ∀ row ∈ rows, Undotted row.value) {typed fragment : String}
    {front : List String} (htyped : texts typed = front ++ [fragment])
    (hpaved : Paved rows [] front) :
    rows.filter (Completes rows typed ·.value) =
      (children rows (join front)).filter (Entry.fits fragment ∘ SuggestionRow.entry) := by
  unfold children
  rw [List.filter_filter]
  refine List.filter_congr fun row hrow => ?_
  rw [Bool.eq_iff_iff, Bool.and_eq_true, decide_eq_true_eq, decide_eq_true_eq,
    Function.comp_apply, isChild_iff (hdot row hrow), completes_iff (hdot row hrow) htyped,
    and_iff_right hpaved, hpaved.texts_join, and_comm]

/-- What completes a typed path is found, in display order. -/
theorem displayOrder_matching (hdot : ∀ row ∈ rows, Undotted row.value) (typed : String) :
    DisplayOrder ((rows.filter (Completes rows typed ·.value)).map SuggestionRow.entry)
      ((matching (forest rows) typed).map entry) := by
  by_cases hempty : typed = ""
  · subst hempty
    rw [filter_completes_empty hdot, matching_empty, forest_eq]
    exact displayOrder_grown rows ""
  obtain ⟨front, fragment, htyped⟩ := exists_texts_eq_concat hempty
  rw [matching_of_texts htyped, forest_eq, descend_grown hdot, texts_empty]
  by_cases hpaved : Paved rows [] front
  · rw [if_pos hpaved, List.nil_append, Option.map_some, Option.getD_some, map_entry_filter,
      filter_completes_paved hdot htyped hpaved]
    have hshown := (displayOrder_grown rows (join front)).filter (Entry.fits fragment)
    rw [List.filter_map] at hshown
    exact hshown
  · have hnone : rows.filter (Completes rows typed ·.value) = [] := by
      refine List.filter_eq_nil_iff.mpr fun row hrow hcompletes => hpaved ?_
      exact ((completes_iff (hdot row hrow) htyped).mp (of_decide_eq_true hcompletes)).1
    rw [if_neg hpaved, hnone]
    exact DisplayOrder.nil

/-- **The nodes that complete a typed path are the rows whose path completes it**, in display
order. Only rooted rows complete a path that is typed, and they are the rows that the forest
holds. -/
theorem matching_forest {rows : List SuggestionRow} (hdot : ∀ row ∈ rows, Undotted row.value)
    (typed : String) :
    DisplayOrder ((rows.filter (Completes rows typed ·.value)).map SuggestionRow.entry)
        ((matching (forest rows) typed).map entry) ∧
      ∀ row ∈ rows, Rooted rows row.value ↔ Reached rows "" row.value := by
  refine ⟨displayOrder_matching hdot typed, fun row hrow => ?_⟩
  by_cases hempty : row.value = ""
  · exact iff_of_false (fun h => h.1 hempty) fun h => h.isValue.1 hempty
  · exact (reached_iff_rooted hdot ⟨hempty, row, hrow, rfl⟩).symm

/-- Rows of an argument, in no order, with one path that fits and one that does not. -/
def argumentRows : List SuggestionRow :=
  [⟨"p#f", "Argument[0].Element", "", .field⟩, ⟨"p#f", "Argument[0].Field[a.b]", "d", .field⟩,
    ⟨"p#f", "Argument[0]", "", .parameter⟩]

theorem matching_argumentRows :
    DisplayOrder [⟨"Element", "Argument[0].Element", "symbol-field", none⟩]
      ((matching (forest argumentRows) "Argument[0].eM").map entry) := by
  have hlisted : (argumentRows.filter (Completes argumentRows "Argument[0].eM" ·.value)).map
      SuggestionRow.entry = [⟨"Element", "Argument[0].Element", "symbol-field", none⟩] := by
    decide
  rw [← hlisted]
  exact (matching_forest (by decide) "Argument[0].eM").1

end Completion

end Dataflow
