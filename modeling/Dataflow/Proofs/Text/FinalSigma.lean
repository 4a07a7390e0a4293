import Dataflow.Text.Lowercase
import Mathlib.Data.List.Infix

/-!
# Lower case and what is written behind a text

A text keeps its lower case when more is written behind it, but for one letter: a capital sigma at
its end is written `ς`, and `σ` when the word goes on.

* `Ignorable cs`: no character decides whether a word ends.
* `EndsInSigma before cs`: the last character of `cs` that is not ignorable is a capital sigma with
  a letter before it.
* `Reopens text more`: the word that ends in such a sigma goes on in `more`.

Results:
* `endsWord_append_ne_iff`: what is written behind a sigma changes it in this case only.
* `following_prefix_iff`: the same of the lower case of a text read behind another.
* `lowercase_prefix_iff`: the lower case of a text is a prefix of that of the longer text, unless a
  sigma is reopened.
-/

namespace Dataflow.Text

namespace Lowercase

/-- All characters are skipped when a cased one is looked for. -/
def Ignorable (cs : List Char) : Prop :=
  ∀ c ∈ cs, inRanges c.toNat ignorableRanges = true

theorem ignorable_cons {c : Char} {cs : List Char} :
    Ignorable (c :: cs) ↔ inRanges c.toNat ignorableRanges = true ∧ Ignorable cs :=
  List.forall_mem_cons

theorem meetsCased_of_ignorable {front : List Char} (h : Ignorable front) (back : List Char) :
    meetsCased (front ++ back) = meetsCased back := by
  induction front with
  | nil => rfl
  | cons c front ih =>
    obtain ⟨hc, hfront⟩ := ignorable_cons.mp h
    rw [List.cons_append, meetsCased, if_pos hc, ih hfront]

/-- The first character that is not ignorable decides. -/
theorem meetsCased_of_not_ignorable {front : List Char} (h : ¬ Ignorable front) (back : List Char) :
    meetsCased (front ++ back) = meetsCased front := by
  induction front with
  | nil => exact absurd (fun _ hc => absurd hc List.not_mem_nil) h
  | cons c front ih =>
    rw [List.cons_append, meetsCased, meetsCased]
    split_ifs with hc
    · exact ih fun hfront => h (ignorable_cons.mpr ⟨hc, hfront⟩)
    · rfl

theorem meetsCased_eq_false {cs : List Char} (h : Ignorable cs) : meetsCased cs = false := by
  have hnil := meetsCased_of_ignorable h []
  rwa [List.append_nil] at hnil

/-- **What is written behind a sigma changes it** when there is a letter before it, nothing that
counts up to the end, and a letter behind the end. -/
theorem endsWord_append_ne_iff {before after more : List Char} :
    endsWord before (after ++ more) ≠ endsWord before after ↔
      (meetsCased before = true ∧ Ignorable after) ∧ meetsCased more = true := by
  unfold endsWord
  by_cases hafter : Ignorable after
  · rw [meetsCased_of_ignorable hafter, meetsCased_eq_false hafter]
    cases meetsCased before <;> cases meetsCased more <;> simp [hafter]
  · rw [meetsCased_of_not_ignorable hafter]
    simp [hafter]

/-- Behind `before`, read backwards, a text ends in a word whose last character is a capital sigma,
ignorable characters apart. -/
def EndsInSigma (before cs : List Char) : Prop :=
  ∃ front back, cs = front ++ 'Σ' :: back ∧ meetsCased (front.reverse ++ before) = true ∧
    Ignorable back

theorem not_endsInSigma_nil (before : List Char) : ¬ EndsInSigma before [] := by
  rintro ⟨front, back, h, -⟩
  simp at h

theorem endsInSigma_cons {before : List Char} {c : Char} {cs : List Char} :
    EndsInSigma before (c :: cs) ↔
      (c = 'Σ' ∧ meetsCased before = true ∧ Ignorable cs) ∨ EndsInSigma (c :: before) cs := by
  constructor
  · rintro ⟨front, back, h, hcased, hback⟩
    cases front with
    | nil =>
      obtain ⟨rfl, rfl⟩ := List.cons.inj h
      exact Or.inl ⟨rfl, hcased, hback⟩
    | cons d front =>
      obtain ⟨rfl, rfl⟩ := List.cons.inj h
      refine Or.inr ⟨front, back, rfl, ?_, hback⟩
      rwa [List.reverse_cons, List.append_assoc, List.singleton_append] at hcased
  · rintro (⟨rfl, hcased, hcs⟩ | ⟨front, back, rfl, hcased, hback⟩)
    · exact ⟨[], cs, rfl, hcased, hcs⟩
    · refine ⟨c :: front, back, rfl, ?_, hback⟩
      rwa [List.reverse_cons, List.append_assoc, List.singleton_append]

/-- The lower-case form of a first character, with a look at both sides. -/
def first (before : List Char) (c : Char) (after : List Char) : List Char :=
  if c = 'Σ' then [if endsWord before after then 'ς' else 'σ'] else ofChar c

theorem following_cons (before : List Char) (c : Char) (after : List Char) :
    following before (c :: after) = first before c after ++ following (c :: before) after := rfl

theorem length_first (before : List Char) (c : Char) (after more : List Char) :
    (first before c (after ++ more)).length = (first before c after).length := by
  unfold first
  split_ifs <;> rfl

theorem first_append_eq_iff (before : List Char) (c : Char) (after more : List Char) :
    first before c (after ++ more) = first before c after ↔
      ¬ ((c = 'Σ' ∧ meetsCased before = true ∧ Ignorable after) ∧ meetsCased more = true) := by
  rw [and_assoc, ← endsWord_append_ne_iff]
  unfold first
  by_cases hc : c = 'Σ'
  · rw [if_pos hc, if_pos hc]
    cases endsWord before after <;> cases endsWord before (after ++ more) <;> simp [hc]
  · simp [hc]

/-- **What is written behind a text leaves its lower case alone**, unless it reopens a sigma. -/
theorem following_prefix_iff (more : List Char) : ∀ before cs : List Char,
    following before cs <+: following before (cs ++ more) ↔
      ¬ (EndsInSigma before cs ∧ meetsCased more = true)
  | before, [] =>
    iff_of_true (List.nil_prefix) fun h => not_endsInSigma_nil before h.1
  | before, c :: cs => by
    have ih := following_prefix_iff more (c :: before) cs
    have hfirst := first_append_eq_iff before c cs more
    rw [List.cons_append, following_cons, following_cons, endsInSigma_cons]
    by_cases heq : first before c (cs ++ more) = first before c cs
    · rw [heq, List.prefix_append_right_inj, ih, or_and_right, or_iff_right (hfirst.mp heq)]
    · refine iff_of_false (fun h => heq ?_) fun h => heq (hfirst.mpr fun hfinal =>
        h ⟨Or.inl hfinal.1, hfinal.2⟩)
      -- The two forms of the first character are equally long, so they are one prefix.
      have hlength := length_first before c cs more
      have hshort := (List.prefix_append (first before c cs) _).trans h
      have hlong := List.prefix_append (first before c (cs ++ more))
        (following (c :: before) (cs ++ more))
      exact (List.prefix_of_prefix_length_le hlong hshort hlength.le).eq_of_length hlength

end Lowercase

/-- A text ends in a word whose last character is a capital sigma, and what is written behind it
goes on with the word. -/
def Reopens (text more : String) : Prop :=
  Lowercase.EndsInSigma [] text.toList ∧ Lowercase.meetsCased more.toList = true

/-- **The lower case of a text is a prefix of that of a longer one**, unless a sigma is reopened. -/
theorem lowercase_prefix_iff {text more : String} :
    (lowercase text).toList <+: (lowercase (text ++ more)).toList ↔ ¬ Reopens text more := by
  unfold lowercase Reopens
  rw [String.toList_ofList, String.toList_ofList, String.toList_append,
    Lowercase.following_prefix_iff]

-- The modifier letter `𞀰` (U+1E030) is skipped on the way to the letter that goes on with the word.
example : lowercase "ΑΣ" = "ας" ∧ lowercase "ΑΣ𞀰" = "ας𞀰" ∧ lowercase "ΑΣ𞀰Β" = "ασ𞀰β" := by
  decide +kernel

end Dataflow.Text
