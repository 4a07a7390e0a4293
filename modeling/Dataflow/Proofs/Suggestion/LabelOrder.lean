import Dataflow.Proofs.Suggestion.DisplayOrder
import Dataflow.Proofs.Text.Digit
import Dataflow.Proofs.Text.Ends

/-!
# The order of labels is total, and numbered labels are in the order of their numbers

* `Number digits`: a text of digits from `0` to `9`, at least one. It may start with zeros and have
  any length.
* `bracketed word content`: the label `word[content]`.

Results:
* `index?_numbered`: the index of a numbered label is its number without zeros in front.
* `rank_numbered`: labels that differ in nothing but the number are of one rank.
* `compare_numbered`: labels of arguments or of parameters are in the order of their numbers.
* `compare_exact`: all that the display order promises.
-/

namespace Dataflow.Label

/-- At least one digit, and nothing else. -/
def Number (digits : String) : Prop :=
  digits ≠ "" ∧ digits.toList.all Text.isAsciiDigit = true

instance (digits : String) : Decidable (Number digits) :=
  inferInstanceAs (Decidable (_ ∧ _))

/-- A word with something in brackets behind it. -/
def bracketed (word content : String) : String :=
  word ++ "[" ++ content ++ "]"

/-! ## What a numbered label is -/

variable {word digits : String}

theorem bracketed?_eq_some_iff {label content : String} :
    Text.bracketed? word label = some content ↔ label = bracketed word content :=
  Text.bracketed?_eq_some_iff

theorem bracketed?_eq_none_iff {label : String} :
    Text.bracketed? word label = none ↔ ∀ content, label ≠ bracketed word content := by
  simp only [Option.eq_none_iff_forall_ne_some, ne_eq, bracketed?_eq_some_iff]

theorem bracketed_inj {a b : String} (h : bracketed word a = bracketed word b) : a = b := by
  have ha := bracketed?_eq_some_iff.mpr h
  rw [bracketed?_eq_some_iff.mpr rfl] at ha
  exact Option.some.inj ha

theorem bracketed?_argument_parameter (content : String) :
    Text.bracketed? "Argument" (bracketed "Parameter" content) = none := by
  rw [Option.eq_none_iff_forall_ne_some]
  intro other h
  have hfirst := congrArg (fun text => text.toList.head?) (bracketed?_eq_some_iff.mp h)
  simp [bracketed] at hfirst

theorem parameter_ne_argument (content other : String) :
    bracketed "Parameter" content ≠ bracketed "Argument" other := by
  intro h
  have hother := bracketed?_eq_some_iff.mpr h
  rw [bracketed?_argument_parameter] at hother
  exact absurd hother (by simp)

/-- A number is not a name. -/
theorem numbered_ne (h : Number digits) (name : String)
    (hname : name.toList.all Text.isAsciiDigit = false) :
    bracketed word digits ≠ bracketed word name := by
  intro heq
  rw [← bracketed_inj heq, h.2] at hname
  exact absurd hname (by decide)

theorem number?_numbered (h : Number digits) :
    number? word (bracketed word digits) = some digits := by
  unfold number?
  rw [bracketed?_eq_some_iff.mpr rfl, Option.filter_some, if_pos]
  rw [Bool.and_eq_true, bne_iff_ne, List.all_eq_true]
  exact ⟨h.1, fun c hc => Text.isDecimalDigit_of_isAsciiDigit (List.all_eq_true.mp h.2 c hc)⟩

theorem number?_argument_parameter (content : String) :
    number? "Argument" (bracketed "Parameter" content) = none := by
  unfold number?
  rw [bracketed?_argument_parameter]
  rfl

theorem rank_argument (h : Number digits) : rank (bracketed "Argument" digits) = 1 := by
  have hself : bracketed "Argument" digits ≠ "Argument[self]" := numbered_ne h "self" (by decide)
  unfold rank
  rw [if_neg hself, number?_numbered h]
  rfl

theorem rank_parameter (h : Number digits) : rank (bracketed "Parameter" digits) = 5 := by
  have hkeyword : isKeyword (bracketed "Parameter" digits) = false := by
    unfold isKeyword
    rw [bracketed?_argument_parameter]
    rfl
  have hself : bracketed "Parameter" digits ≠ "Argument[self]" := parameter_ne_argument _ "self"
  have hblock : bracketed "Parameter" digits ≠ "Argument[block]" := parameter_ne_argument _ "block"
  have hsplat : bracketed "Parameter" digits ≠ "Argument[hash-splat]" :=
    parameter_ne_argument _ "hash-splat"
  unfold rank
  rw [if_neg hself, number?_argument_parameter, hkeyword, if_neg hblock, if_neg hsplat,
    number?_numbered h]
  rfl

theorem index?_numbered (hword : word = "Argument" ∨ word = "Parameter") (h : Number digits) :
    index? (bracketed word digits) = some (withoutZeros digits) := by
  unfold index?
  rcases hword with rfl | rfl
  · rw [number?_numbered h]
    rfl
  · rw [number?_argument_parameter, number?_numbered h]
    rfl

theorem rank_numbered (hword : word = "Argument" ∨ word = "Parameter") {m n : String}
    (hm : Number m) (hn : Number n) : rank (bracketed word m) = rank (bracketed word n) := by
  rcases hword with rfl | rfl
  · rw [rank_argument hm, rank_argument hn]
  · rw [rank_parameter hm, rank_parameter hn]

/-! ## The order of numbers -/

theorem isAsciiDigit_of_mem_withoutZeros (h : Number digits) :
    ∀ c ∈ digits.toList.dropWhile (· == '0'), Text.isAsciiDigit c = true :=
  fun c hc => List.all_eq_true.mp h.2 c ((List.dropWhile_suffix _).subset hc)

theorem head?_withoutZeros (ds : List Char) : (ds.dropWhile (· == '0')).head? ≠ some '0' := by
  intro h
  have hnot := List.head?_dropWhile_not (· == '0') ds
  rw [h] at hnot
  exact absurd hnot (by decide)

/-- **Labels of arguments or of parameters are in the order of their numbers**; if these are equal,
in the order of the texts. -/
theorem compare_numbered (hword : word = "Argument" ∨ word = "Parameter") {m n : String}
    (hm : Number m) (hn : Number n) :
    compare (bracketed word m) (bracketed word n) =
      (Ord.compare (Text.decimalValue m.toList) (Text.decimalValue n.toList)).then
        (Ord.compare (bracketed word m) (bracketed word n)) := by
  have hvalues := Text.compare_decimalValue (isAsciiDigit_of_mem_withoutZeros hm)
    (isAsciiDigit_of_mem_withoutZeros hn) (head?_withoutZeros m.toList)
    (head?_withoutZeros n.toList)
  rw [Text.decimalValue_dropWhile, Text.decimalValue_dropWhile] at hvalues
  have hsize : ∀ {digits : String}, Number digits →
      indexSize (bracketed word digits) = (digits.toList.dropWhile (· == '0')).length := by
    intro digits h
    unfold indexSize
    rw [index?_numbered hword h, Option.map_some, Option.getD_some]
    exact Text.utf8ByteSize_of_digits (isAsciiDigit_of_mem_withoutZeros h)
  have hbody : ∀ {digits : String}, Number digits →
      body (bracketed word digits) = withoutZeros digits := by
    intro digits h
    unfold body
    rw [index?_numbered hword h, Option.getD_some]
  rw [hvalues, Ordering.then_assoc]
  unfold compare
  simp only [compareLex, compareOn, hsize hm, hsize hn, hbody hm, hbody hn,
    rank_numbered hword hm hn, Nat.compare_eq_eq.mpr, Ordering.eq_then, id]
  rfl

/-- **The display order is total**, only equal labels tie, and numbers count as numbers. -/
theorem compare_exact :
    (∀ a b, compare b a = (compare a b).swap) ∧
      (∀ a b c, (compare a b).isLE → (compare b c).isLE → (compare a c).isLE) ∧
      (∀ a b, compare a b = .eq ↔ a = b) ∧
      ∀ word ∈ ["Argument", "Parameter"], ∀ m n, Number m → Number n →
        compare (bracketed word m) (bracketed word n) =
          (Ord.compare (Text.decimalValue m.toList) (Text.decimalValue n.toList)).then
            (Ord.compare (bracketed word m) (bracketed word n)) := by
  refine ⟨fun a b => Std.OrientedCmp.eq_swap, fun a b c => Std.TransCmp.isLE_trans,
    fun a b => compare_eq_eq_iff, fun word hword m n hm hn => ?_⟩
  exact compare_numbered (by simpa using hword) hm hn

/-- Zeros in front do not count. -/
theorem compare_bond : compare "Argument[007]" "Argument[12]" = .lt :=
  compare_exact.2.2.2 "Argument" (by decide) "007" "12" (by decide) (by decide)

end Dataflow.Label
