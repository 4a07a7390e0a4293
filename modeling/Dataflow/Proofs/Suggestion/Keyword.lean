import Dataflow.Proofs.AccessPath.Grammar
import Dataflow.Proofs.Suggestion.LabelOrder
import Dataflow.Proofs.Suggestion.Rooted

/-!
# The place of keyword arguments

A keyword argument `Argument[name:]` is shown behind the receiver and the numbered arguments. It is
shown in front of blocks, parameters and everything else if its name has no digit. A name with a
digit is not taken for a keyword, and the label stands among those of no rank of their own, in the
order of their letters.

* `Identifier name`: a word that does not start with a digit.
* `keyword name`: the label of a keyword argument.
* `Leads`: the receiver and the numbered arguments.
* `Trails`: blocks, hash splats and the numbered parameters.
* `Foreign`: labels that start like neither an argument nor a parameter.

Results:
* `rank_keyword`: the rank of a keyword argument.
* `index_lt_iff`: siblings stand in the order of their labels.
* `keyword_place`: where keyword arguments stand among siblings.
* `keywords_misplaced`: a digit in the name puts a keyword argument behind the block.
-/

namespace Dataflow

/-- Below the digits of other scripts, the decimal digits are those of ASCII. -/
theorem Text.isDecimalDigit_of_lt {c : Char} (h : c.toNat < 0x660) :
    isDecimalDigit c = isAsciiDigit c := by
  have hzeros : ∀ first ∈ decimalZeros.tail, 0x660 ≤ first := by decide
  rw [Bool.eq_iff_iff]
  refine ⟨fun hdigit => ?_, isDecimalDigit_of_isAsciiDigit⟩
  obtain ⟨first, hfirst, hrange⟩ := List.any_eq_true.mp hdigit
  rw [Bool.and_eq_true, decide_eq_true_eq, decide_eq_true_eq] at hrange
  rcases List.mem_cons.mp hfirst with rfl | hlater
  · exact isAsciiDigit_iff.mpr hrange
  · have := hzeros first hlater
    omega

namespace Label

open AccessPath (IsWord WordChar)

/-! ## Labels by their form -/

/-- A word of ASCII letters, digits and underscores that does not start with a digit. -/
structure Identifier (name : String) : Prop where
  word : IsWord name
  start : ∀ c ∈ name.toList.head?, Text.isAsciiDigit c = false

instance (name : String) : Decidable (Identifier name) :=
  decidable_of_iff (name ≠ "" ∧ name.toList.all AccessPath.isWordChar = true ∧
      name.toList.head?.any Text.isAsciiDigit = false) <| by
    simp only [List.all_eq_true, AccessPath.isWordChar_iff, Option.any_eq_false]
    exact ⟨fun h => ⟨⟨h.1, h.2.1⟩, h.2.2⟩, fun h => ⟨h.word.1, h.word.2, h.start⟩⟩

/-- The label of a keyword argument. -/
def keyword (name : String) : String :=
  bracketed "Argument" (name ++ ":")

/-- A name has no digit. -/
def Digitless (name : String) : Prop :=
  ∀ c ∈ name.toList, Text.isAsciiDigit c = false

instance (name : String) : Decidable (Digitless name) :=
  inferInstanceAs (Decidable (∀ c ∈ name.toList, _))

/-- The labels that keyword arguments stand behind. -/
inductive Leads : String → Prop
  | receiver : Leads "Argument[self]"
  | positional {digits : String} (h : Number digits) : Leads (bracketed "Argument" digits)

/-- The labels of arguments and parameters that keyword arguments are to stand in front of. -/
inductive Trails : String → Prop
  | block : Trails "Argument[block]"
  | splat : Trails "Argument[hash-splat]"
  | parameter {digits : String} (h : Number digits) : Trails (bracketed "Parameter" digits)

/-- The label starts like neither an argument nor a parameter. -/
def Foreign (label : String) : Prop :=
  ∀ rest, label ≠ "Argument[" ++ rest ∧ label ≠ "Parameter[" ++ rest

/-! ## Ranks -/

theorem WordChar.toNat_lt {c : Char} (h : WordChar c) : c.toNat < 0x80 := by
  rcases h with h | h | h | rfl
  · exact Nat.lt_of_le_of_lt (show c.toNat ≤ 'Z'.toNat from h.2) (by decide)
  · exact Nat.lt_of_le_of_lt (show c.toNat ≤ 'z'.toNat from h.2) (by decide)
  · exact Nat.lt_of_le_of_lt (show c.toNat ≤ '9'.toNat from h.2) (by decide)
  · decide

/-- The last character tells a keyword argument from other arguments. -/
theorem keyword_ne (name content : String) (h : content.toList.getLast? ≠ some ':') :
    keyword name ≠ bracketed "Argument" content := by
  intro heq
  rw [← bracketed_inj heq] at h
  simp at h

theorem bracketed?_parameter_keyword (name : String) :
    Text.bracketed? "Parameter" (keyword name) = none := by
  rw [bracketed?_eq_none_iff]
  exact fun content h => parameter_ne_argument content _ h.symm

theorem number?_argument_keyword (name : String) : number? "Argument" (keyword name) = none := by
  unfold number? keyword
  rw [bracketed?_eq_some_iff.mpr rfl, Option.filter_some, if_neg]
  have hcolon : Text.isDecimalDigit ':' = false := by decide
  simp [hcolon]

/-- **A name is taken for a keyword** if it has no digit. -/
theorem isKeyword_keyword {name : String} (h : Identifier name) :
    isKeyword (keyword name) = decide (Digitless name) := by
  have hname : (Text.bracketed? "Argument" (keyword name)).bind (Text.dropLast? ':') =
      some name := by
    unfold keyword
    rw [bracketed?_eq_some_iff.mpr rfl, Option.bind_some, Text.dropLast?_eq_some_iff]
  unfold isKeyword
  simp only [hname]
  rw [Bool.eq_iff_iff, Bool.and_eq_true, bne_iff_ne, and_iff_right h.word.1, List.all_eq_true,
    decide_eq_true_eq]
  refine forall₂_congr fun c hc => ?_
  have hword := h.word.2 c hc
  have hne : c ≠ ':' := by
    rintro rfl
    simp [WordChar] at hword
  have hlt := WordChar.toNat_lt hword
  rw [Text.isDecimalDigit_of_lt (by omega)]
  simp [hne]

/-- **The rank of a keyword argument.** -/
theorem rank_keyword {name : String} (h : Identifier name) :
    rank (keyword name) = if Digitless name then 2 else 6 := by
  have hself : keyword name ≠ "Argument[self]" := keyword_ne name "self" (by decide)
  have hblock : keyword name ≠ "Argument[block]" := keyword_ne name "block" (by decide)
  have hsplat : keyword name ≠ "Argument[hash-splat]" := keyword_ne name "hash-splat" (by decide)
  have hparameter : number? "Parameter" (keyword name) = none := by
    unfold number?
    rw [bracketed?_parameter_keyword]
    rfl
  unfold rank
  rw [if_neg hself, number?_argument_keyword, isKeyword_keyword h, if_neg hblock, if_neg hsplat,
    hparameter]
  simp

theorem Leads.rank_lt {label : String} (h : Leads label) : rank label < 2 := by
  cases h with
  | receiver => decide
  | positional h => rw [rank_argument h]; decide

theorem Trails.rank_mem {label : String} (h : Trails label) : 2 < rank label ∧ rank label < 6 := by
  cases h with
  | block => decide
  | splat => decide
  | parameter h => rw [rank_parameter h]; decide

theorem bracketed_eq (word content : String) :
    bracketed word content = word ++ "[" ++ (content ++ "]") :=
  String.append_assoc

theorem Foreign.rank_eq {label : String} (h : Foreign label) : rank label = 6 := by
  have hargument : ∀ content, label ≠ bracketed "Argument" content :=
    fun content heq => (h (content ++ "]")).1 (heq.trans (bracketed_eq _ _))
  have hparameter : ∀ content, label ≠ bracketed "Parameter" content :=
    fun content heq => (h (content ++ "]")).2 (heq.trans (bracketed_eq _ _))
  have hself : label ≠ "Argument[self]" := hargument "self"
  have hblock : label ≠ "Argument[block]" := hargument "block"
  have hsplat : label ≠ "Argument[hash-splat]" := hargument "hash-splat"
  unfold rank number? isKeyword
  rw [bracketed?_eq_none_iff.mpr hargument, bracketed?_eq_none_iff.mpr hparameter, if_neg hself,
    if_neg hblock, if_neg hsplat]
  rfl

/-! ## The order of ranks -/

theorem compare_of_rank_lt {a b : String} (h : rank a < rank b) : compare a b = .lt := by
  unfold compare
  simp only [compareLex, compareOn, Nat.compare_eq_lt.mpr h, Ordering.lt_then]

theorem index?_of_rank_eq {label : String} (h : rank label = 6) : index? label = none := by
  unfold rank at h
  split_ifs at h <;> simp_all [index?]

/-- Labels of no rank of their own are in the order of their letters. -/
theorem compare_of_rank_eq {a b : String} (ha : rank a = 6) (hb : rank b = 6) :
    compare a b =
      (Ord.compare (Text.lowercase a) (Text.lowercase b)).then (Ord.compare a b) := by
  unfold compare
  simp only [compareLex, compareOn, ha, hb, indexSize, body, index?_of_rank_eq ha,
    index?_of_rank_eq hb, Option.map_none, Option.getD_none, Nat.compare_eq_eq.mpr,
    Ordering.eq_then, id]

end Label

/-! ## Siblings -/

namespace Completion

open Label

/-- The labels of siblings are in display order. -/
theorem SiblingsIn.sorted {rows : List SuggestionRow} {siblings : List Completion}
    (h : SiblingsIn (forest rows) siblings) :
    (siblings.map label).Pairwise fun a b => Label.compare a b ≠ .gt := by
  rcases h.eq_grown with rfl | ⟨parent, rfl⟩
  · exact List.Pairwise.nil
  · have hsorted := (displayOrder_grown rows parent).sorted
    rw [List.pairwise_map] at hsorted ⊢
    simpa only [entry_label] using hsorted

/-- **Two labels stand in the order that they compare in.** -/
theorem index_lt_iff {labels : List String} (h : labels.Pairwise fun a b => Label.compare a b ≠ .gt)
    {i j : Nat} {a b : String} (hi : labels[i]? = some a) (hj : labels[j]? = some b)
    (hne : a ≠ b) : i < j ↔ Label.compare a b = .lt := by
  have hle : ∀ {i j : Nat} {a b : String}, labels[i]? = some a → labels[j]? = some b → i < j →
      Label.compare a b ≠ .gt := by
    intro i j a b hi hj hlt
    obtain ⟨hilt, rfl⟩ := List.getElem?_eq_some_iff.mp hi
    obtain ⟨hjlt, rfl⟩ := List.getElem?_eq_some_iff.mp hj
    exact List.pairwise_iff_getElem.mp h i j hilt hjlt hlt
  constructor
  · intro hlt
    cases hcompare : Label.compare a b with
    | lt => rfl
    | eq => exact absurd (compare_eq_eq_iff.mp hcompare) hne
    | gt => exact absurd hcompare (hle hi hj hlt)
  · intro hcompare
    rcases Nat.lt_trichotomy i j with hlt | rfl | hgt
    · exact hlt
    · rw [hi] at hj
      exact absurd (Option.some.inj hj) hne
    · have hswap : Label.compare b a = (Label.compare a b).swap := Std.OrientedCmp.eq_swap
      rw [hcompare] at hswap
      exact absurd hswap (hle hj hi hgt)

theorem index_lt_of_rank_lt {labels : List String}
    (h : labels.Pairwise fun a b => Label.compare a b ≠ .gt) {i j : Nat} {a b : String}
    (hi : labels[i]? = some a) (hj : labels[j]? = some b) (hlt : rank a < rank b) : i < j :=
  (index_lt_iff h hi hj (ne_of_apply_ne rank hlt.ne)).mpr (compare_of_rank_lt hlt)

/-- The labels at the top are the one arrangement in display order. -/
theorem map_label_forest {rows : List SuggestionRow} {labels : List String}
    (hperm : ((children rows "").map fun row => row.entry.label).Perm labels)
    (hsorted : labels.Pairwise fun a b => Label.compare a b ≠ .gt) :
    (forest rows).map label = labels := by
  have hshown : ((forest rows).map label).Perm labels := by
    have hentries := (displayOrder_grown rows "").perm.map Entry.label
    rw [List.map_map, List.map_map, ← forest_eq,
      show Entry.label ∘ entry = label from funext entry_label] at hentries
    exact hentries.trans hperm
  refine hshown.eq_of_pairwise ?_ SiblingsIn.top.sorted hsorted
  intro a b _ _ hab hba
  exact compare_eq_eq_iff.mp (Std.OrientedCmp.isLE_antisymm (Ordering.ne_gt_iff_isLE.mp hab)
    (Ordering.ne_gt_iff_isLE.mp hba))

/-- **Where keyword arguments stand among siblings.** They stand behind the receiver and the
numbered arguments. They stand in front of blocks, parameters and what is neither an argument nor a
parameter if their name has no digit. With a digit they stand behind blocks and parameters, and
with what is neither they are in the order of letters. -/
theorem keyword_place {rows : List SuggestionRow} {siblings : List Completion}
    (h : SiblingsIn (forest rows) siblings) {name other : String} (hname : Identifier name)
    {i j : Nat} (hi : (siblings.map label)[i]? = some (keyword name))
    (hj : (siblings.map label)[j]? = some other) :
    (Leads other → j < i) ∧
      (Trails other → (i < j ↔ Digitless name)) ∧
      (Foreign other → (i < j ↔ Digitless name ∨
        (Ord.compare (Text.lowercase (keyword name)) (Text.lowercase other)).then
          (Ord.compare (keyword name) other) = .lt)) := by
  have hrank := rank_keyword hname
  refine ⟨fun hleads => ?_, fun htrails => ?_, fun hforeign => ?_⟩
  · have hlt := hleads.rank_lt
    refine index_lt_of_rank_lt h.sorted hj hi ?_
    rw [hrank]
    split_ifs <;> omega
  · obtain ⟨hafter, hbefore⟩ := htrails.rank_mem
    by_cases hdigit : Digitless name
    · rw [if_pos hdigit] at hrank
      exact iff_of_true (index_lt_of_rank_lt h.sorted hi hj (by omega)) hdigit
    · rw [if_neg hdigit] at hrank
      exact iff_of_false (Nat.lt_asymm (index_lt_of_rank_lt h.sorted hj hi (by omega))) hdigit
  · have hother := hforeign.rank_eq
    by_cases hdigit : Digitless name
    · rw [if_pos hdigit] at hrank
      exact iff_of_true (index_lt_of_rank_lt h.sorted hi hj (by omega)) (Or.inl hdigit)
    · have hne : keyword name ≠ other := by
        rintro rfl
        exact (hforeign (name ++ ":" ++ "]")).1 (bracketed_eq _ _)
      rw [if_neg hdigit] at hrank
      rw [index_lt_iff h.sorted hi hj hne, compare_of_rank_eq hrank hother, or_iff_right hdigit]

/-- Rows of a method with two keyword arguments, of which one has a digit in its name. -/
def keywordRows : List SuggestionRow :=
  [⟨"IO#open", "Argument[utf8:]", "", .parameter⟩, ⟨"IO#open", "Argument[block]", "", .parameter⟩,
    ⟨"IO#open", "Argument[mode:]", "", .parameter⟩, ⟨"IO#open", "Argument[0]", "", .parameter⟩]

theorem map_label_keywordRows :
    (forest keywordRows).map label =
      ["Argument[0]", "Argument[mode:]", "Argument[block]", "Argument[utf8:]"] :=
  map_label_forest (by decide) (by decide)

theorem keyword_place_mode :
    ((forest keywordRows).map label)[1]? = some (keyword "mode") ∧
      ((forest keywordRows).map label)[2]? = some "Argument[block]" ∧
      Identifier "mode" ∧ (1 < 2 ↔ Digitless "mode") := by
  have hkeyword : ((forest keywordRows).map label)[1]? = some (keyword "mode") := by
    rw [map_label_keywordRows]
    rfl
  have hblock : ((forest keywordRows).map label)[2]? = some "Argument[block]" := by
    rw [map_label_keywordRows]
    rfl
  have hname : Identifier "mode" := by decide
  exact ⟨hkeyword, hblock, hname, (keyword_place .top hname hkeyword hblock).2.1 .block⟩

/-- **A digit in its name puts a keyword argument behind the block.** -/
theorem keywords_misplaced :
    ¬ ∀ (rows : List SuggestionRow) (siblings : List Completion) (name other : String) (i j : Nat),
      SiblingsIn (forest rows) siblings → Identifier name →
        (siblings.map label)[i]? = some (keyword name) → (siblings.map label)[j]? = some other →
          Trails other → i < j := by
  intro h
  have hlt := h keywordRows _ "utf8" "Argument[block]" 3 2 .top (by decide)
    (by rw [map_label_keywordRows]; rfl) (by rw [map_label_keywordRows]; rfl) .block
  exact absurd hlt (by decide)

end Completion

end Dataflow
