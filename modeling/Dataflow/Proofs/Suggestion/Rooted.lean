import Dataflow.Proofs.Suggestion.Forest

/-!
# The forest holds the rooted rows

* `Reached rows top path`: a row has the path, and rows have all paths on the way up to `top`.
* `nodes options`: all nodes of a forest, at every level.
* `SiblingsIn options siblings`: a list of siblings of a forest, at any level.

Results:
* `mem_nodes_iff`: the nodes are those that stand among siblings.
* `perm_nodes_grown`: the nodes that grow below a path are the rows that reach it, each once.
* `forest_complete`: what the forest of some rows holds, and where.
-/

namespace Dataflow.Completion

open AccessPath

/-! ## Rooted rows -/

/-- A row has this path, and rows have all paths on the way up to `top`. -/
inductive Reached (rows : List SuggestionRow) (top : String) : String → Prop
  | child {path : String} (hvalue : IsValue rows path) (htop : parentOf path = top) :
      Reached rows top path
  | step {path : String} (hvalue : IsValue rows path)
      (hparent : Reached rows top (parentOf path)) : Reached rows top path

variable {rows : List SuggestionRow} {top path : String}

theorem reached_iff :
    Reached rows top path ↔
      IsValue rows path ∧ (parentOf path = top ∨ Reached rows top (parentOf path)) := by
  constructor
  · intro h
    cases h with
    | child hvalue htop => exact ⟨hvalue, Or.inl htop⟩
    | step hvalue hparent => exact ⟨hvalue, Or.inr hparent⟩
  · rintro ⟨hvalue, htop | hparent⟩
    · exact .child hvalue htop
    · exact .step hvalue hparent

theorem Reached.isValue (h : Reached rows top path) : IsValue rows path :=
  (reached_iff.mp h).1

/-- The way up gets shorter, so it can be followed. -/
instance decidableReached (rows : List SuggestionRow) (top path : String) :
    Decidable (Reached rows top path) :=
  if h : path = "" then
    isFalse fun hreached => hreached.isValue.1 h
  else
    have := length_parentOf_lt h
    have := decidableReached rows top (parentOf path)
    decidable_of_iff _ reached_iff.symm
termination_by path.length

theorem Reached.length_le (h : Reached rows top path) :
    top.length ≤ (parentOf path).length := by
  induction h with
  | child hvalue htop => exact Nat.le_of_eq (congrArg String.length htop).symm
  | step hvalue hparent ih =>
    have := length_parentOf_lt hparent.isValue.1
    omega

/-- A path that is reached from below `top` is reached from `top`. -/
theorem Reached.trans {middle : String} (hmiddle : Reached rows top middle)
    (h : Reached rows middle path) : Reached rows top path := by
  induction h with
  | child hvalue htop =>
    subst htop
    exact .step hvalue hmiddle
  | step hvalue hparent ih => exact .step hvalue ih

/-- A path is a child of `top`, or reached from one. -/
theorem reached_iff_exists_child :
    Reached rows top path ↔
      (IsValue rows path ∧ parentOf path = top) ∨
        ∃ child, IsValue rows child ∧ parentOf child = top ∧ Reached rows child path := by
  constructor
  · intro h
    induction h with
    | child hvalue htop => exact Or.inl ⟨hvalue, htop⟩
    | step hvalue hparent ih =>
      refine Or.inr ?_
      rcases ih with ⟨hchild, htop⟩ | ⟨child, hchild, htop, hreached⟩
      · exact ⟨_, hchild, htop, .child hvalue rfl⟩
      · exact ⟨child, hchild, htop, .step hvalue hreached⟩
  · rintro (⟨hvalue, htop⟩ | ⟨child, hchild, htop, hreached⟩)
    · exact .child hvalue htop
    · exact (Reached.child hchild htop).trans hreached

/-- A child of `top` is not reached from another. -/
theorem not_reached_of_child {child : String} (hchild : child ≠ "") (htop : parentOf child = top)
    (hpath : parentOf path = top) : ¬ Reached rows child path := by
  intro h
  have hle := h.length_le
  have hlt := length_parentOf_lt hchild
  rw [htop] at hlt
  rw [hpath] at hle
  omega

/-- A path is reached from one child of `top` at most. -/
theorem Reached.child_unique {a b : String} (ha : a ≠ "") (hb : b ≠ "") (hatop : parentOf a = top)
    (hbtop : parentOf b = top) (hapath : Reached rows a path) (hbpath : Reached rows b path) :
    a = b := by
  induction hapath with
  | child hvalue hparent =>
    subst hparent
    cases hbpath with
    | child _ hparent => exact hparent
    | step _ hparent => exact absurd hparent (not_reached_of_child hb hbtop hatop)
  | step hvalue hreached ih =>
    cases hbpath with
    | child _ hparent =>
      subst hparent
      exact absurd hreached (not_reached_of_child ha hatop hbtop)
    | step _ hparent => exact ih hparent

/-! ## All nodes -/

/-- The nodes of a forest, at every level. -/
def nodes : List Completion → List Completion
  | [] => []
  | node label value icon details followup :: rest =>
    node label value icon details followup :: (nodes followup ++ nodes rest)

theorem nodes_cons (option : Completion) (rest : List Completion) :
    nodes (option :: rest) = option :: (nodes option.followup ++ nodes rest) := by
  cases option
  rw [nodes]
  rfl

/-- The nodes of siblings are the siblings and, for each of their paths, the nodes below it. -/
theorem perm_nodes_attach (grow : String → List Completion) :
    ∀ (seen : List String) (options : List Completion),
      ∃ paths : List String, paths.Nodup ∧
        (∀ path, path ∈ paths ↔ path ∉ seen ∧ path ∈ options.map value) ∧
        ((nodes (attach grow seen options)).map entry).Perm
          (options.map entry ++ paths.flatMap fun path => (nodes (grow path)).map entry)
  | seen, [] => ⟨[], List.nodup_nil, by simp, by simp [attach, nodes]⟩
  | seen, option :: options => by
    obtain ⟨paths, hnodup, hmem, hperm⟩ := perm_nodes_attach grow (option.value :: seen) options
    simp only [attach, nodes_cons, followup_withFollowup, List.map_cons, List.map_append,
      entry_withFollowup, List.cons_append]
    by_cases hseen : option.value ∈ seen
    · refine ⟨paths, hnodup, fun path => ?_, ?_⟩
      · rw [hmem, List.mem_cons, List.mem_cons]
        constructor
        · rintro ⟨hnot, hin⟩
          exact ⟨fun h => hnot (Or.inr h), Or.inr hin⟩
        · rintro ⟨hnot, hin⟩
          have hne : path ≠ option.value := fun h => hnot (h ▸ hseen)
          exact ⟨not_or.mpr ⟨hne, hnot⟩, hin.resolve_left hne⟩
      · rw [if_pos (by simpa using hseen), nodes, List.map_nil, List.nil_append]
        exact hperm.cons option.entry
    · refine ⟨option.value :: paths, ?_, fun path => ?_, ?_⟩
      · refine List.nodup_cons.mpr ⟨fun h => ?_, hnodup⟩
        exact ((hmem _).mp h).1 List.mem_cons_self
      · rw [List.mem_cons, hmem, List.mem_cons, List.mem_cons]
        by_cases hpath : path = option.value
        · subst hpath
          simp [hseen]
        · simp [hpath]
      · rw [if_neg (by simpa using hseen), List.flatMap_cons]
        -- The nodes below the first sibling move behind the other siblings.
        refine List.Perm.cons _ ((hperm.append_left _).trans ?_)
        rw [← List.append_assoc, ← List.append_assoc]
        exact List.perm_append_comm.append_right _

/-- What two tests that exclude each other keep is what either keeps. -/
theorem perm_filter_or {α : Type} {p q : α → Bool} {xs : List α}
    (h : ∀ x ∈ xs, p x = true → q x = false) :
    (xs.filter p ++ xs.filter q).Perm (xs.filter fun x => p x || q x) := by
  have hsplit := List.filter_append_perm p (xs.filter fun x => p x || q x)
  rw [List.filter_filter, List.filter_filter] at hsplit
  have hp : xs.filter (fun x => p x && (p x || q x)) = xs.filter p :=
    List.filter_congr fun x _ => by cases p x <;> rfl
  have hq : xs.filter (fun x => !p x && (p x || q x)) = xs.filter q :=
    List.filter_congr fun x hx => by
      cases hpx : p x with
      | true => rw [h x hx hpx]; rfl
      | false => simp
  rw [hp, hq] at hsplit
  exact hsplit

/-- What tests that exclude each other keep, taken together, is what some of them keeps. -/
theorem perm_flatMap_filter {α β : Type} {p : β → α → Bool} {xs : List α} :
    ∀ {keys : List β}, keys.Nodup →
      (∀ x ∈ xs, ∀ a ∈ keys, ∀ b ∈ keys, p a x = true → p b x = true → a = b) →
        (keys.flatMap fun key => xs.filter (p key)).Perm (xs.filter fun x => keys.any (p · x))
  | [], _, _ => by simp
  | key :: keys, hnodup, h => by
    obtain ⟨hkey, hkeys⟩ := List.nodup_cons.mp hnodup
    have ih := perm_flatMap_filter hkeys fun x hx a ha b hb =>
      h x hx a (List.mem_cons_of_mem _ ha) b (List.mem_cons_of_mem _ hb)
    rw [List.flatMap_cons]
    simp only [List.any_cons]
    refine (ih.append_left _).trans (perm_filter_or fun x hx hpx => ?_)
    rw [List.any_eq_false]
    intro other hother hq
    have heq := h x hx key List.mem_cons_self other (List.mem_cons_of_mem _ hother) hpx hq
    subst heq
    exact hkey hother

theorem mem_map_value_under :
    path ∈ (under (placed rows) top).map value ↔ IsValue rows path ∧ parentOf path = top := by
  rw [List.mem_map]
  constructor
  · rintro ⟨option, hoption, rfl⟩
    obtain ⟨row, hrow, rfl⟩ := mem_under.mp hoption
    obtain ⟨hmem, hne, htop⟩ := mem_children.mp hrow
    exact ⟨⟨hne, row, hmem, rfl⟩, htop⟩
  · rintro ⟨⟨hne, row, hmem, rfl⟩, htop⟩
    exact ⟨ofRow row, mem_under.mpr ⟨row, mem_children.mpr ⟨hmem, hne, htop⟩, rfl⟩, rfl⟩

/-- The rows that reach `top` are its children and what reaches a path of a child. -/
theorem perm_reached {paths : List String} (hnodup : paths.Nodup)
    (hmem : ∀ path, path ∈ paths ↔ IsValue rows path ∧ parentOf path = top) :
    (children rows top ++ paths.flatMap fun path => rows.filter (Reached rows path ·.value)).Perm
      (rows.filter (Reached rows top ·.value)) := by
  have hunique : ∀ row ∈ rows, ∀ a ∈ paths, ∀ b ∈ paths, decide (Reached rows a row.value) = true →
      decide (Reached rows b row.value) = true → a = b := by
    intro row _ a ha b hb hra hrb
    obtain ⟨hav, hatop⟩ := (hmem a).mp ha
    obtain ⟨hbv, hbtop⟩ := (hmem b).mp hb
    exact (of_decide_eq_true hra).child_unique hav.1 hbv.1 hatop hbtop (of_decide_eq_true hrb)
  have hflat := perm_flatMap_filter hnodup hunique
  refine (hflat.append_left _).trans ((perm_filter_or fun row _ hchild => ?_).trans ?_)
  · rw [List.any_eq_false]
    intro child hin hreached
    obtain ⟨hvalue, htop⟩ := (hmem child).mp hin
    exact not_reached_of_child hvalue.1 htop (of_decide_eq_true hchild).2
      (of_decide_eq_true hreached)
  · refine List.Perm.of_eq (List.filter_congr fun row hrow => ?_)
    rw [Bool.eq_iff_iff, Bool.or_eq_true, List.any_eq_true, decide_eq_true_eq, decide_eq_true_eq,
      reached_iff_exists_child]
    constructor
    · rintro (⟨hne, htop⟩ | ⟨child, hin, hreached⟩)
      · exact Or.inl ⟨⟨hne, row, hrow, rfl⟩, htop⟩
      · obtain ⟨hvalue, htop⟩ := (hmem child).mp hin
        exact Or.inr ⟨child, hvalue, htop, of_decide_eq_true hreached⟩
    · rintro (⟨hvalue, htop⟩ | ⟨child, hvalue, htop, hreached⟩)
      · exact Or.inl ⟨hvalue.1, htop⟩
      · exact Or.inr ⟨child, (hmem child).mpr ⟨hvalue, htop⟩, decide_eq_true hreached⟩

/-- **The nodes that grow below a path are the rows that reach it**, each once. -/
theorem perm_nodes_grown (rows : List SuggestionRow) (top : String) :
    ((nodes (grown rows top)).map entry).Perm
      ((rows.filter (Reached rows top ·.value)).map SuggestionRow.entry) := by
  obtain ⟨paths, hnodup, hmem, hperm⟩ :=
    perm_nodes_attach (grown rows) [] (under (placed rows) top)
  have hpaths : ∀ path, path ∈ paths ↔ IsValue rows path ∧ parentOf path = top := fun path => by
    rw [hmem, mem_map_value_under]
    simp
  rw [grown_eq rows top]
  refine hperm.trans ?_
  refine List.Perm.trans ?_ ((perm_reached hnodup hpaths).map SuggestionRow.entry)
  rw [List.map_append, List.map_flatMap]
  refine (displayOrder_under rows top).perm.append (List.Perm.flatMap_left _ fun path hin => ?_)
  obtain ⟨⟨hne, row, hrow, rfl⟩, htop⟩ := (hpaths path).mp hin
  have hlt := longer_child_lt (mem_children.mpr ⟨hrow, hne, htop⟩)
  exact perm_nodes_grown rows row.value
termination_by longer rows top

/-! ## Siblings -/

/-- Siblings at some level of a forest. -/
inductive SiblingsIn (options : List Completion) : List Completion → Prop
  | top : SiblingsIn options options
  | followup {siblings : List Completion} {node : Completion}
      (hsiblings : SiblingsIn options siblings) (hnode : node ∈ siblings) :
      SiblingsIn options node.followup

theorem mem_nodes_of_mem {node : Completion} :
    ∀ {options : List Completion}, node ∈ options → node ∈ nodes options
  | option :: options, h => by
    rw [nodes_cons, List.mem_cons, List.mem_append]
    rcases List.mem_cons.mp h with rfl | h
    · exact Or.inl rfl
    · exact Or.inr (Or.inr (mem_nodes_of_mem h))

/-- What is below a node is among the nodes. -/
theorem mem_nodes_followup {node child : Completion} (hchild : child ∈ node.followup) :
    ∀ {options : List Completion}, node ∈ nodes options → child ∈ nodes options
  | [], h => by simp [nodes] at h
  | .node label value icon details followup :: options, h => by
    rw [nodes, List.mem_cons, List.mem_append] at h ⊢
    rcases h with rfl | h | h
    · exact Or.inr (Or.inl (mem_nodes_of_mem hchild))
    · exact Or.inr (Or.inl (mem_nodes_followup hchild h))
    · exact Or.inr (Or.inr (mem_nodes_followup hchild h))

theorem SiblingsIn.trans {options middle siblings : List Completion}
    (hmiddle : SiblingsIn options middle) (h : SiblingsIn middle siblings) :
    SiblingsIn options siblings := by
  induction h with
  | top => exact hmiddle
  | followup _ hnode ih => exact .followup ih hnode

/-- Siblings behind a first node are siblings with it, or the rest of the top. -/
theorem SiblingsIn.cons {first : Completion} {options siblings : List Completion}
    (h : SiblingsIn options siblings) :
    siblings = options ∨ SiblingsIn (first :: options) siblings := by
  induction h with
  | top => exact Or.inl rfl
  | followup _ hnode ih =>
    rcases ih with rfl | ih
    · exact Or.inr (.followup .top (List.mem_cons_of_mem _ hnode))
    · exact Or.inr (.followup ih hnode)

theorem exists_siblings_of_mem_nodes {node : Completion} :
    ∀ {options : List Completion}, node ∈ nodes options →
      ∃ siblings, SiblingsIn options siblings ∧ node ∈ siblings
  | [], h => by simp [nodes] at h
  | .node label value icon details followup :: options, h => by
    rw [nodes, List.mem_cons, List.mem_append] at h
    rcases h with rfl | h | h
    · exact ⟨_, .top, List.mem_cons_self⟩
    · obtain ⟨siblings, hsiblings, hnode⟩ := exists_siblings_of_mem_nodes h
      exact ⟨siblings, .trans (.followup .top List.mem_cons_self) hsiblings, hnode⟩
    · obtain ⟨siblings, hsiblings, hnode⟩ := exists_siblings_of_mem_nodes h
      rcases hsiblings.cons with rfl | hcons
      · exact ⟨_, .top, List.mem_cons_of_mem _ hnode⟩
      · exact ⟨siblings, hcons, hnode⟩

/-- **The nodes are those that stand among siblings.** -/
theorem mem_nodes_iff {options : List Completion} {node : Completion} :
    node ∈ nodes options ↔ ∃ siblings, SiblingsIn options siblings ∧ node ∈ siblings := by
  constructor
  · exact exists_siblings_of_mem_nodes
  · rintro ⟨siblings, hsiblings, hnode⟩
    induction hsiblings generalizing node with
    | top => exact mem_nodes_of_mem hnode
    | followup _ hparent ih => exact mem_nodes_followup hnode (ih hparent)

/-- What is below a node of a path is all that grows below the path, or nothing. -/
theorem followup_grown {parent : String} {front back : List Completion} {node : Completion}
    (h : grown rows parent = front ++ node :: back) :
    node.followup = if node.value ∈ front.map value then [] else grown rows node.value := by
  rw [grown_eq] at h
  rw [followup_attach h]
  simp

theorem SiblingsIn.eq_grown {siblings : List Completion}
    (h : SiblingsIn (forest rows) siblings) :
    siblings = [] ∨ ∃ parent, siblings = grown rows parent := by
  induction h with
  | top => exact Or.inr ⟨"", forest_eq rows⟩
  | followup _ hnode ih =>
    rcases ih with rfl | ⟨parent, rfl⟩
    · exact absurd hnode List.not_mem_nil
    · obtain ⟨front, back, hgrown⟩ := List.append_of_mem hnode
      rw [followup_grown hgrown]
      split_ifs
      · exact Or.inl rfl
      · exact Or.inr ⟨_, rfl⟩

theorem displayOrder_grown (rows : List SuggestionRow) (parent : String) :
    DisplayOrder ((children rows parent).map SuggestionRow.entry)
      ((grown rows parent).map entry) := by
  rw [grown_eq, map_entry_attach]
  exact displayOrder_under rows parent

/-- A node that grows below a path is that of a child of the path. -/
theorem exists_mem_children {parent : String} {node : Completion} (h : node ∈ grown rows parent) :
    ∃ row ∈ children rows parent, row.entry = node.entry := by
  have hentry := (displayOrder_grown rows parent).perm.mem_iff.mp (List.mem_map_of_mem h)
  exact List.mem_map.mp hentry

theorem value_of_entry {row : SuggestionRow} {node : Completion} (h : row.entry = node.entry) :
    row.value = node.value := by
  rw [← entry_value, ← h]
  rfl

/-- **The forest loses and repeats no row.** Its nodes are the rows that reach the top, each once,
and each stands among siblings. Siblings are the rows of one parent, in display order; when several
of them have one path, only the first has something below it. -/
theorem forest_complete (rows : List SuggestionRow) :
    ((nodes (forest rows)).map entry).Perm
        ((rows.filter (Reached rows "" ·.value)).map SuggestionRow.entry) ∧
      (∀ node, node ∈ nodes (forest rows) ↔
        ∃ siblings, SiblingsIn (forest rows) siblings ∧ node ∈ siblings) ∧
      DisplayOrder ((children rows "").map SuggestionRow.entry) ((forest rows).map entry) ∧
      ∀ front node back, SiblingsIn (forest rows) (front ++ node :: back) →
        (node.value ∈ front.map value → node.followup = []) ∧
          (node.value ∉ front.map value →
            DisplayOrder ((children rows node.value).map SuggestionRow.entry)
              (node.followup.map entry)) := by
  refine ⟨perm_nodes_grown rows "", fun _ => mem_nodes_iff, displayOrder_grown rows "",
    fun front node back h => ?_⟩
  obtain ⟨parent, hgrown⟩ : ∃ parent, front ++ node :: back = grown rows parent := by
    rcases h.eq_grown with hnil | hgrown
    · simp at hnil
    · exact hgrown
  rw [followup_grown hgrown.symm]
  refine ⟨fun hin => if_pos hin, fun hnotin => ?_⟩
  rw [if_neg hnotin]
  exact displayOrder_grown rows node.value

end Dataflow.Completion
