import Dataflow.Proofs.Suggestion.Matching

/-!
# Rows whose path starts with a dot

A path that starts with a dot has an empty first token. Of such rows those with two tokens, `.x`,
come to stand at the top, where their label is that of the path `x`. Everything below a dotted path
is dotted, and nothing else is. So dotted rows leave the others alone, but for one thing: a walk
that enters `.x` for the label `x` misses what is below `x`.

* `undotted rows`: the rows whose path does not start with a dot.
* `entered rows label`: the first row that stands at the top with a label.
* `misled rows typed`: the walk down a typed path enters a dotted row.

Results:
* `forest_undotted`: the top without its dotted nodes is that of the other rows.
* `find?_forest`: the node that a walk enters is that of the first row.
* `undotted_matching`: what dotted rows change in the completions of a typed path.
-/

namespace Dataflow.Completion

open AccessPath

variable {rows : List SuggestionRow}

/-- The rows whose path does not start with a dot. -/
def undotted (rows : List SuggestionRow) : List SuggestionRow :=
  rows.filter fun row => Undotted row.value

/-! ## Below a path -/

/-- **A child starts as its parent does.** -/
theorem head?_of_mem_children {parent : String} (hparent : parent ≠ "") {row : SuggestionRow}
    (h : row ∈ children rows parent) : row.value.toList.head? = parent.toList.head? := by
  obtain ⟨-, hne, rfl⟩ := mem_children.mp h
  obtain ⟨front, last, htexts⟩ := exists_texts_eq_concat hne
  rw [parentOf_of_texts htexts] at hparent ⊢
  have hfront : front ≠ [] := by
    rintro rfl
    exact hparent rfl
  have hjoin := join_texts row.value
  rw [htexts, join_append hfront (List.cons_ne_nil _ _)] at hjoin
  obtain ⟨c, cs, hcs⟩ := List.exists_cons_of_ne_nil (mt String.toList_eq_nil_iff.mp hparent)
  rw [← hjoin, String.toList_append, String.toList_append, hcs]
  rfl

theorem undotted_iff_of_head? {a b : String} (h : a.toList.head? = b.toList.head?) :
    Undotted a ↔ Undotted b := by
  unfold Undotted
  rw [h]

theorem head?_of_mem_grown {parent : String} (hparent : parent ≠ "") {node : Completion}
    (h : node ∈ grown rows parent) : node.value.toList.head? = parent.toList.head? := by
  obtain ⟨row, hrow, hentry⟩ := exists_mem_children h
  rw [← value_of_entry hentry]
  exact head?_of_mem_children hparent hrow

theorem value_ne_of_mem_grown {parent : String} {node : Completion}
    (h : node ∈ grown rows parent) : node.value ≠ "" := by
  obtain ⟨row, hrow, hentry⟩ := exists_mem_children h
  rw [← value_of_entry hentry]
  exact (mem_children.mp hrow).2.1

/-- What a node leads on to grows below its path. -/
theorem mem_grown_of_mem_followup {parent : String} {node option : Completion}
    (hnode : node ∈ grown rows parent) (h : option ∈ node.followup) :
    option ∈ grown rows node.value := by
  obtain ⟨front, back, hgrown⟩ := List.append_of_mem hnode
  rw [followup_grown hgrown] at h
  split_ifs at h
  · exact absurd h List.not_mem_nil
  · exact h

theorem descend_cons (options : List Completion) (label : String) (labels : List String) :
    descend options (label :: labels) =
      (options.find? fun option => option.label == label).bind fun option =>
        descend option.followup labels := by
  rw [descend]
  cases options.find? (fun option => option.label == label) <;> rfl

/-- **The walk stays among paths that start alike.** -/
theorem head?_of_descend {labels : List String} : ∀ {parent : String} {node : Completion}
    {reached : List Completion}, node ∈ grown rows parent →
      descend node.followup labels = some reached →
        ∀ option ∈ reached, option.value.toList.head? = node.value.toList.head? := by
  induction labels with
  | nil =>
    intro parent node reached hnode h option hoption
    obtain rfl := Option.some.inj h
    exact head?_of_mem_grown (value_ne_of_mem_grown hnode)
      (mem_grown_of_mem_followup hnode hoption)
  | cons label labels ih =>
    intro parent node reached hnode h option hoption
    rw [descend_cons] at h
    obtain ⟨next, hfind, hdescend⟩ := Option.bind_eq_some_iff.mp h
    have hnext := mem_grown_of_mem_followup hnode (List.mem_of_find?_eq_some hfind)
    rw [← head?_of_mem_grown (value_ne_of_mem_grown hnode) hnext]
    exact ih hnext hdescend option hoption

/-- What completes the rest of a typed path below the node of its first token. -/
def matchingBelow (labels : List String) (fragment : String) (node : Completion) :
    List Completion :=
  ((descend node.followup labels).map fun reached => reached.filter (fits fragment)).getD []

theorem matching_eq_matchingBelow {typed label fragment : String} {labels : List String}
    (htyped : texts typed = label :: labels ++ [fragment]) (options : List Completion) :
    matching options typed =
      ((options.find? fun option => option.label == label).map
        (matchingBelow labels fragment)).getD [] := by
  rw [matching_of_texts htyped, descend_cons]
  cases options.find? (fun option => option.label == label) <;> rfl

/-- Below a dotted node all is dotted, and below another one nothing is. -/
theorem filter_matchingBelow {parent : String} {node : Completion}
    (hnode : node ∈ grown rows parent) (labels : List String) (fragment : String) :
    ((matchingBelow labels fragment node).filter fun option => Undotted option.value) =
      if Undotted node.value then matchingBelow labels fragment node else [] := by
  have hbelow : ∀ option ∈ matchingBelow labels fragment node,
      option.value.toList.head? = node.value.toList.head? := by
    intro option hoption
    unfold matchingBelow at hoption
    cases hdescend : descend node.followup labels with
    | none => simp [hdescend] at hoption
    | some reached =>
      rw [hdescend, Option.map_some, Option.getD_some] at hoption
      exact head?_of_descend hnode hdescend option (List.mem_filter.mp hoption).1
  split_ifs with hdot
  · refine List.filter_eq_self.mpr fun option hoption => decide_eq_true ?_
    exact (undotted_iff_of_head? (hbelow option hoption)).mpr hdot
  · refine List.filter_eq_nil_iff.mpr fun option hoption hkept => hdot ?_
    exact (undotted_iff_of_head? (hbelow option hoption)).mp (of_decide_eq_true hkept)

/-! ## The top -/

theorem children_undotted (rows : List SuggestionRow) (parent : String) :
    children (undotted rows) parent =
      (children rows parent).filter fun row => Undotted row.value := by
  unfold children undotted
  exact List.filter_comm _ _ _

theorem under_undotted (rows : List SuggestionRow) (parent : String) :
    under (placed (undotted rows)) parent =
      (under (placed rows) parent).filter fun option => Undotted option.value := by
  rw [under_eq, under_eq, children_undotted, ← Sorting.mergeSort_filter mayPrecede_eq,
    List.filter_map]
  rfl

/-- Below a path that does not start with a dot, dotted rows change nothing. -/
theorem grown_undotted {parent : String} (hparent : parent ≠ "") (hdot : Undotted parent) :
    grown rows parent = grown (undotted rows) parent := by
  refine grown_congr (fun path => path ≠ "" ∧ Undotted path) ?_ ?_ ⟨hparent, hdot⟩
  · rintro path ⟨hpath, hundotted⟩ row hrow
    refine ⟨(mem_children.mp hrow).2.1, ?_⟩
    exact (undotted_iff_of_head? (head?_of_mem_children hpath hrow)).mpr hundotted
  · rintro path ⟨hpath, hundotted⟩
    rw [under_undotted, List.filter_eq_self.mpr]
    intro option hoption
    obtain ⟨row, hrow, rfl⟩ := mem_under.mp hoption
    exact decide_eq_true
      ((undotted_iff_of_head? (head?_of_mem_children hpath hrow)).mpr hundotted)

/-- Siblings that are left out take nothing from the others, when none of these has their path. -/
theorem filter_attach {grow : String → List Completion} (keep : String → Bool) :
    ∀ {seen seen' : List String} {options : List Completion},
      (∀ path, keep path = true → (path ∈ seen ↔ path ∈ seen')) →
        (attach grow seen options).filter (fun option => keep option.value) =
          attach grow seen' (options.filter fun option => keep option.value)
  | _, _, [], _ => rfl
  | seen, seen', option :: options, h => by
    rw [attach]
    by_cases hkeep : keep option.value = true
    · simp only [List.filter_cons, value_withFollowup, hkeep, if_true, attach]
      congr 1
      · simp only [List.contains_iff_mem, h _ hkeep]
      · refine filter_attach keep fun path hpath => ?_
        rw [List.mem_cons, List.mem_cons, h path hpath]
    · simp only [List.filter_cons, value_withFollowup, hkeep]
      refine filter_attach keep fun path hpath => ?_
      have hne : path ≠ option.value := fun heq => hkeep (heq ▸ hpath)
      rw [List.mem_cons, h path hpath]
      simp [hne]

/-- **The top without its dotted nodes is that of the other rows.** -/
theorem forest_undotted (rows : List SuggestionRow) :
    forest (undotted rows) = (forest rows).filter fun option => Undotted option.value := by
  have hattach : (attach (grown rows) [] (under (placed rows) "")).filter
      (fun option => Undotted option.value) =
        attach (grown rows) []
          ((under (placed rows) "").filter fun option => Undotted option.value) :=
    filter_attach (fun path => decide (Undotted path)) fun _ _ => Iff.rfl
  rw [forest_eq, forest_eq, grown_eq, grown_eq rows, hattach, ← under_undotted]
  refine attach_congr fun option hoption => ?_
  obtain ⟨row, hrow, rfl⟩ := mem_under.mp hoption
  obtain ⟨hmem, hne, -⟩ := mem_children.mp hrow
  exact (grown_undotted hne (of_decide_eq_true (List.mem_filter.mp hmem).2)).symm

/-! ## Where a walk enters -/

/-- The first row that stands at the top with a label. -/
def entered (rows : List SuggestionRow) (label : String) : Option SuggestionRow :=
  rows.find? fun row => row.value ≠ "" ∧ (row.value = label ∨ row.value = "." ++ label)

/-- A path stands at the top with a label when it is the label, with a dot in front or not. -/
theorem isChild_top_iff {label : String} (hsolid : Solid 0 label.toList) {row : SuggestionRow} :
    (row.value ≠ "" ∧ parentOf row.value = "") ∧ row.entry.label = label ↔
      row.value ≠ "" ∧ (row.value = label ∨ row.value = "." ++ label) := by
  constructor
  · rintro ⟨⟨hne, htop⟩, rfl⟩
    refine ⟨hne, ?_⟩
    obtain ⟨front, last, htexts⟩ := exists_texts_eq_concat hne
    have hjoin := join_texts row.value
    rw [parentOf_of_texts htexts] at htop
    rw [htexts] at hjoin
    rw [label_of_texts htexts]
    rcases join_eq_empty_iff.mp htop with rfl | rfl
    · exact Or.inl (by rw [← hjoin, List.nil_append, join_singleton])
    · refine Or.inr ?_
      rw [← hjoin, List.singleton_append, join_cons (List.cons_ne_nil _ _), join_singleton,
        String.empty_append]
  · rintro ⟨hne, hvalue⟩
    refine and_assoc.mpr ⟨hne, ?_⟩
    rcases hvalue with hvalue | hvalue
    · have htexts : texts row.value = [] ++ [label] := by
        rw [hvalue, texts_of_solid (hvalue ▸ hne) hsolid, List.nil_append]
      exact ⟨parentOf_of_texts htexts, label_of_texts htexts⟩
    · have hjoin : join ["", label] = "." ++ label := by
        rw [join_cons (List.cons_ne_nil _ _), join_singleton, String.empty_append]
      have htokens : TokenList ["", label] :=
        (tokenList_cons (List.cons_ne_nil _ _)).mpr ⟨solid_nil 0, rfl, hsolid⟩
      have htexts : texts row.value = [""] ++ [label] := by
        rw [hvalue, ← hjoin]
        exact texts_join htokens (by rwa [hjoin, ← hvalue])
      exact ⟨parentOf_of_texts htexts, label_of_texts htexts⟩

theorem find?_eq_head?_ties (label : String) (entries : List Entry) :
    (entries.find? fun entry => entry.label == label) =
      (entries.filter (Entry.ties label)).head? := by
  rw [List.head?_filter]
  congr 1
  funext entry
  rw [Bool.eq_iff_iff]
  unfold Entry.ties
  rw [beq_iff_eq, beq_iff_eq, Label.compare_eq_eq_iff]

/-- **The node that a walk enters is that of the first row** with the label. -/
theorem find?_forest (rows : List SuggestionRow) {label : String} (hsolid : Solid 0 label.toList) :
    ((forest rows).find? fun option => option.label == label).map entry =
      (entered rows label).map SuggestionRow.entry := by
  have hforest : ((forest rows).find? fun option => option.label == label).map entry =
      ((forest rows).map entry).find? fun entry => entry.label == label := by
    rw [List.find?_map]
    refine congrArg (Option.map entry) (congrFun (congrArg List.find? (funext fun option => ?_)) _)
    rw [Function.comp_apply, entry_label]
  have hrows : (entered rows label).map SuggestionRow.entry =
      ((children rows "").map SuggestionRow.entry).find? fun entry => entry.label == label := by
    unfold entered children
    rw [List.find?_map, List.find?_filter]
    refine congrArg (Option.map _) (congrFun (congrArg List.find? (funext fun row => ?_)) _)
    rw [Bool.eq_iff_iff, decide_eq_true_eq, decide_eq_true_eq, decide_eq_true_eq,
      Function.comp_apply, beq_iff_eq, isChild_top_iff hsolid]
  rw [hforest, hrows, find?_eq_head?_ties, find?_eq_head?_ties, forest_eq,
    (displayOrder_grown rows "").stable]

/-- The node that is found has the path of the row that is entered. -/
theorem exists_entered {label : String} (hsolid : Solid 0 label.toList) {node : Completion}
    (hfind : (forest rows).find? (fun option => option.label == label) = some node) :
    ∃ row, entered rows label = some row ∧
      (row.value = label ∨ row.value = "." ++ label) ∧ node.value = row.value := by
  have hentered := find?_forest rows hsolid
  rw [hfind, Option.map_some, eq_comm] at hentered
  obtain ⟨row, hrow, hentry⟩ := Option.map_eq_some_iff.mp hentered
  have hplace := List.find?_some (p := fun row : SuggestionRow =>
    decide (row.value ≠ "" ∧ (row.value = label ∨ row.value = "." ++ label))) hrow
  exact ⟨row, hrow, (of_decide_eq_true hplace).2, (value_of_entry hentry).symm⟩

theorem undotted_of_solid {label : String} (hsolid : Solid 0 label.toList) : Undotted label := by
  intro h
  obtain ⟨back, hback⟩ := List.head?_eq_some_iff.mp h
  exact hsolid [] back hback rfl

theorem not_undotted_dot (label : String) : ¬ Undotted ("." ++ label) := by
  simp [Undotted]

/-! ## What is found -/

/-- The row that is entered for a label has a dot in front of it. -/
def entersDotted (rows : List SuggestionRow) (label : String) : Bool :=
  (entered rows label).any fun row => row.value == "." ++ label

/-- The walk down a typed path enters a row whose path starts with a dot. -/
def misled (rows : List SuggestionRow) (typed : String) : Bool :=
  match texts typed with
  | label :: _ :: _ => entersDotted rows label
  | _ => false

/-- What is found first is still found first when other elements are left out. -/
theorem find?_filter_of_find? {α : Type} {p q : α → Bool} {xs : List α} {x : α}
    (h : xs.find? q = some x) (hp : p x = true) : (xs.filter p).find? q = some x := by
  obtain ⟨hq, front, back, hxs, hfront⟩ := List.find?_eq_some_iff_append.mp h
  rw [List.find?_filter, List.find?_eq_some_iff_append]
  refine ⟨decide_eq_true ⟨hp, hq⟩, front, back, hxs, fun y hy => ?_⟩
  have hnot := hfront y hy
  simp only [Bool.not_eq_true'] at hnot
  simp [hnot]

/-- A walk that enters a dotted row finds dotted paths only. Any other walk finds what it finds
without the dotted rows. -/
theorem filter_matching_of_texts {typed label fragment : String} {labels : List String}
    (htyped : texts typed = label :: labels ++ [fragment]) :
    ((matching (forest rows) typed).filter fun option => Undotted option.value) =
      if entersDotted rows label then [] else matching (forest (undotted rows)) typed := by
  have hsolid : Solid 0 label.toList :=
    (tokenList_texts (ne_empty_of_texts htyped)).solid label (htyped ▸ List.mem_cons_self)
  rw [matching_eq_matchingBelow htyped, matching_eq_matchingBelow htyped, forest_undotted]
  cases hfind : (forest rows).find? (fun option => option.label == label) with
  | none =>
    have hnone : ((forest rows).filter fun option => Undotted option.value).find?
        (fun option => option.label == label) = none :=
      List.find?_eq_none.mpr fun option hoption =>
        List.find?_eq_none.mp hfind option (List.mem_filter.mp hoption).1
    rw [hnone]
    simp
  | some node =>
    obtain ⟨row, hrow, hplace, hvalue⟩ := exists_entered hsolid hfind
    have hnode : node ∈ grown rows "" := List.mem_of_find?_eq_some hfind
    have hdotted : entersDotted rows label = (row.value == "." ++ label) := by
      rw [entersDotted, hrow, Option.any_some]
    rw [Option.map_some, Option.getD_some, filter_matchingBelow hnode, hvalue, hdotted]
    rcases hplace with hplain | hdot
    · have hundotted := undotted_of_solid hsolid
      have hne : label ≠ "." ++ label := fun h => not_undotted_dot label (h ▸ hundotted)
      have hkept : (decide (Undotted node.value)) = true := by
        rw [hvalue, hplain]
        exact decide_eq_true hundotted
      rw [hplain, if_pos hundotted, if_neg (by simpa using hne),
        find?_filter_of_find? hfind hkept, Option.map_some, Option.getD_some]
    · rw [hdot, if_neg (not_undotted_dot label), if_pos (beq_self_eq_true _)]

/-- **What dotted rows change in the completions of a typed path.** They hide the others when the
walk enters one of them. Otherwise the completions that are not dotted are those without these rows,
in one order. -/
theorem undotted_matching (rows : List SuggestionRow) (typed : String) :
    ((matching (forest rows) typed).filter fun option => Undotted option.value) =
      if misled rows typed then [] else matching (forest (undotted rows)) typed := by
  unfold misled
  cases htexts : texts typed with
  | nil =>
    obtain rfl := texts_eq_nil_iff.mp htexts
    rw [matching_empty, matching_empty, forest_undotted]
    rfl
  | cons label rest =>
    cases rest with
    | nil =>
      have htyped : texts typed = [] ++ [label] := htexts
      rw [matching_of_texts htyped, matching_of_texts htyped, forest_undotted]
      exact List.filter_comm _ _ _
    | cons next rest =>
      obtain ⟨labels, fragment, hlast⟩ :=
        (List.eq_nil_or_concat' (next :: rest)).resolve_left (List.cons_ne_nil _ _)
      rw [hlast] at htexts
      exact filter_matching_of_texts htexts

/-- Rows of an argument, of which a dotted one arrives first. -/
def dottedRows : List SuggestionRow :=
  [⟨"p#f", ".Argument[0]", "", .misc⟩, ⟨"p#f", "Argument[0]", "", .misc⟩,
    ⟨"p#f", "Argument[0].Element", "", .misc⟩]

/-- The dotted row hides what stands below the argument. -/
theorem matching_dottedRows :
    ((matching (forest dottedRows) "Argument[0].").filter fun option => Undotted option.value) ≠
      matching (forest (undotted dottedRows)) "Argument[0]." := by
  have htyped : texts "Argument[0]." = "Argument[0]" :: [] ++ [""] := by decide
  have hdot : ∀ row ∈ undotted dottedRows, Undotted row.value := by decide
  have hrow : ⟨"p#f", "Argument[0].Element", "", .misc⟩ ∈ undotted dottedRows := by decide
  have hpaved : Paved (undotted dottedRows) [] ["Argument[0]"] := by decide
  have htexts : texts "Argument[0].Element" = texts "Argument[0]" ++ ["Element"] := by decide
  obtain ⟨node, hnode, hlabel⟩ := exists_mem_of_row hdot hrow htexts
  have hfits : fits "" node = true := by
    rw [fits, hlabel]
    decide
  rw [filter_matching_of_texts htyped, if_pos (by decide), matching_of_texts htyped, forest_eq,
    descend_grown hdot, texts_empty, if_pos hpaved, Option.map_some, Option.getD_some]
  exact (List.ne_nil_of_mem (List.mem_filter.mpr ⟨hnode, hfits⟩)).symm

end Dataflow.Completion
