import Dataflow.Text.Ends
import Mathlib.Data.List.TakeWhile
import Mathlib.Tactic.SplitIfs

/-!
# Cutting at the ends of a text is the inverse of putting together

Results:
* `dropFirst?_eq_some_iff`, `dropLast?_eq_some_iff`, `bracketed?_eq_some_iff`: the rest a cut gives
  is the text that the cut part completes.
* `mem_splitOn`: the characters of the parts between the occurrences of a character.
* `splitFirst_of_mem`, `splitFirst_of_not_mem`, `splitFirst_eq_iff`: the two sides of the first
  occurrence of a character.
* `append_inj_of_first`, `append_inj_of_last`: two sides that meet at the first or last occurrence
  of a character are determined by what they make together.
-/

namespace Dataflow.Text

/-! ## The first and the last character -/

theorem dropFirst?_eq_some_iff {c : Char} {text rest : String} :
    dropFirst? c text = some rest ↔ text = String.ofList [c] ++ rest := by
  unfold dropFirst?
  rw [← String.toList_inj, String.toList_append, String.toList_ofList, List.singleton_append]
  cases text.toList with
  | nil => simp
  | cons d cs =>
    simp only [List.cons.injEq]
    constructor
    · intro h
      split_ifs at h with hd
      obtain rfl := Option.some.inj h
      exact ⟨hd, String.toList_ofList.symm⟩
    · rintro ⟨hd, hcs⟩
      rw [if_pos hd, hcs, String.ofList_toList]

theorem dropLast?_eq_some_iff {c : Char} {text rest : String} :
    dropLast? c text = some rest ↔ text = rest ++ String.ofList [c] := by
  unfold dropLast?
  rw [← String.toList_inj, String.toList_append, String.toList_ofList]
  constructor
  · intro h
    split_ifs at h with hlast
    obtain ⟨front, hfront⟩ := List.getLast?_eq_some_iff.mp hlast
    obtain rfl := Option.some.inj h
    rw [String.toList_ofList, hfront, List.dropLast_concat]
  · intro h
    rw [h, if_pos List.getLast?_concat, List.dropLast_concat, String.ofList_toList]

theorem dropLast?_eq_none_iff {c : Char} {text : String} :
    dropLast? c text = none ↔ text.toList.getLast? ≠ some c := by
  unfold dropLast?
  split_ifs with h
  · simp [h]
  · simp [h]

/-- The last character of a text is behind some text. -/
theorem getLast?_eq_some_iff {c : Char} {text : String} :
    text.toList.getLast? = some c ↔ ∃ front, text = front ++ String.ofList [c] := by
  constructor
  · intro h
    cases hdrop : dropLast? c text with
    | none => exact absurd h (dropLast?_eq_none_iff.mp hdrop)
    | some front => exact ⟨front, dropLast?_eq_some_iff.mp hdrop⟩
  · rintro ⟨front, rfl⟩
    rw [String.toList_append, String.toList_ofList, List.getLast?_concat]

theorem endsWith_iff {c : Char} {text : String} :
    endsWith c text = true ↔ text.toList.getLast? = some c := by
  unfold endsWith
  exact beq_iff_eq

/-! ## Brackets -/

theorem startsWith_iff {start text : String} :
    startsWith start text = true ↔ ∃ rest, text = start ++ rest := by
  unfold startsWith
  rw [List.isPrefixOf_iff_prefix]
  constructor
  · rintro ⟨rest, hrest⟩
    refine ⟨String.ofList rest, ?_⟩
    rw [← String.toList_inj, String.toList_append, String.toList_ofList, hrest]
  · rintro ⟨rest, rfl⟩
    exact ⟨rest.toList, String.toList_append.symm⟩

/-- The content is what stands between the label with its bracket and the last bracket. -/
theorem bracketed?_eq_some_iff {label text content : String} :
    bracketed? label text = some content ↔ text = label ++ "[" ++ content ++ "]" := by
  unfold bracketed?
  constructor
  · intro h
    split_ifs at h with hstart
    obtain ⟨rest, rfl⟩ := startsWith_iff.mp hstart
    have hdrop := dropLast?_eq_some_iff.mp h
    rw [String.toList_append, List.drop_left' (by simp [String.length_toList]),
      String.ofList_toList] at hdrop
    rw [hdrop, ← String.append_assoc]
  · rintro rfl
    rw [@String.append_assoc (label ++ "["), if_pos (startsWith_iff.mpr ⟨_, rfl⟩),
      dropLast?_eq_some_iff, String.toList_append,
      List.drop_left' (by simp [String.length_toList]), String.ofList_toList]

/-! ## All occurrences of a character -/

/-- A part between the occurrences of a character has characters of the text, but not this one. -/
theorem mem_splitOn {c : Char} {text part : String} (h : part ∈ splitOn c text) :
    ∀ d ∈ part.toList, d ∈ text.toList ∧ d ≠ c := by
  have hlist : ∀ cs : List Char, ∀ ds ∈ cs.splitOn c, ∀ d ∈ ds, d ∈ cs ∧ d ≠ c := by
    intro cs
    induction cs with
    | nil => simp [List.splitOn_nil]
    | cons e cs ih =>
      intro ds hds d hd
      rw [List.splitOn_cons_eq_if_modifyHead] at hds
      obtain ⟨part, parts, hparts⟩ := List.exists_cons_of_ne_nil (List.splitOn_ne_nil c cs)
      rw [hparts] at hds ih
      split_ifs at hds with he
      · rcases List.mem_cons.mp hds with rfl | hlater
        · exact absurd hd List.not_mem_nil
        · exact (ih ds hlater d hd).imp_left (List.mem_cons_of_mem e)
      · rcases List.mem_cons.mp hds with rfl | hlater
        · rcases List.mem_cons.mp hd with rfl | hd
          · exact ⟨List.mem_cons_self, by simpa using he⟩
          · exact (ih part List.mem_cons_self d hd).imp_left (List.mem_cons_of_mem e)
        · exact (ih ds (List.mem_cons_of_mem part hlater) d hd).imp_left (List.mem_cons_of_mem e)
  obtain ⟨ds, hds, rfl⟩ := List.mem_map.mp h
  rw [String.toList_ofList]
  exact hlist text.toList ds hds

/-! ## The first occurrence of a character -/

theorem splitFirst_of_not_mem {c : Char} {text : String} (h : c ∉ text.toList) :
    splitFirst c text = (text, "") := by
  unfold splitFirst
  have hall : ∀ d ∈ text.toList, (d != c) = true := by
    intro d hd
    rw [bne_iff_ne]
    rintro rfl
    exact h hd
  rw [List.takeWhile_eq_self_iff.mpr hall, List.dropWhile_eq_nil_iff.mpr hall]
  simp

theorem splitFirst_of_mem {c : Char} {front : String} (h : c ∉ front.toList) (back : String) :
    splitFirst c (front ++ String.ofList [c] ++ back) = (front, back) := by
  unfold splitFirst
  have hall : ∀ d ∈ front.toList, (d != c) = true := by
    intro d hd
    rw [bne_iff_ne]
    rintro rfl
    exact h hd
  have hlist : (front ++ String.ofList [c] ++ back).toList = front.toList ++ c :: back.toList := by
    simp
  rw [hlist, List.takeWhile_append_of_pos hall, List.dropWhile_append_of_pos hall]
  simp

/-- **A text falls apart at its first `c`**, or is the front when it has none. -/
theorem splitFirst_eq_iff {c : Char} {text front back : String} :
    splitFirst c text = (front, back) ↔
      c ∉ front.toList ∧
        ((text = front ∧ back = "") ∨ text = front ++ String.ofList [c] ++ back) := by
  constructor
  · intro h
    by_cases hc : c ∈ text.toList
    · obtain ⟨start, rest, htext, hstart⟩ := List.eq_append_cons_of_mem hc
      have hwhole : text = String.ofList start ++ String.ofList [c] ++ String.ofList rest := by
        rw [← String.toList_inj, htext]
        simp
      rw [hwhole, splitFirst_of_mem (by rwa [String.toList_ofList])] at h
      obtain ⟨rfl, rfl⟩ := Prod.mk.inj h
      exact ⟨by rwa [String.toList_ofList], Or.inr hwhole⟩
    · rw [splitFirst_of_not_mem hc] at h
      obtain ⟨rfl, rfl⟩ := Prod.mk.inj h
      exact ⟨hc, Or.inl ⟨rfl, rfl⟩⟩
  · rintro ⟨hfront, ⟨rfl, rfl⟩ | rfl⟩
    · exact splitFirst_of_not_mem hfront
    · exact splitFirst_of_mem hfront back

/-- The sides of the first `c` are determined, also when there is none and the back is empty. -/
theorem append_inj_of_first {c : Char} {front front' back back' : List Char} (hf : c ∉ front)
    (hf' : c ∉ front') (hb : ∀ d ∈ back.head?, d = c) (hb' : ∀ d ∈ back'.head?, d = c)
    (h : front ++ back = front' ++ back') : front = front' ∧ back = back' := by
  have htake : ∀ {xs ys : List Char}, c ∉ xs → (∀ d ∈ ys.head?, d = c) →
      (xs ++ ys).takeWhile (· != c) = xs := by
    intro xs ys hxs hys
    have hall : ∀ d ∈ xs, (d != c) = true := by
      intro d hd
      rw [bne_iff_ne]
      rintro rfl
      exact hxs hd
    rw [List.takeWhile_append_of_pos hall]
    cases ys with
    | nil => simp
    | cons d ys =>
      obtain rfl := hys d rfl
      simp
  have hfront : front = front' := by rw [← htake hf hb, h, htake hf' hb']
  subst hfront
  exact ⟨rfl, List.append_cancel_left h⟩

/-- The sides of the last `c` are determined. -/
theorem append_inj_of_last {c : Char} {front front' back back' : List Char} (hb : c ∉ back)
    (hb' : c ∉ back') (h : front ++ c :: back = front' ++ c :: back') :
    front = front' ∧ back = back' := by
  have hreverse := congrArg List.reverse h
  simp only [List.reverse_append, List.reverse_cons, List.append_assoc, List.singleton_append]
    at hreverse
  obtain ⟨hback, hfront⟩ := append_inj_of_first (by simpa using hb) (by simpa using hb')
    (by simp) (by simp) hreverse
  exact ⟨List.reverse_inj.mp (List.cons.inj hfront).2, List.reverse_inj.mp hback⟩

/-- The front side has no occurrence. -/
theorem not_mem_splitFirst_fst (c : Char) (text : String) : c ∉ (splitFirst c text).1.toList := by
  unfold splitFirst
  rw [String.toList_ofList]
  intro h
  have hne : (c != c) = true := List.mem_takeWhile_imp (p := fun d => d != c) h
  exact absurd rfl (bne_iff_ne.mp hne)

/-- The back side is shorter than the text. -/
theorem length_splitFirst_snd_lt {text : String} (h : text ≠ "") (c : Char) :
    (splitFirst c text).2.length < text.length := by
  have hlen : 0 < text.toList.length := by
    rw [List.length_pos_iff]
    exact fun h0 => h (String.toList_eq_nil_iff.mp h0)
  have hsuffix := (List.dropWhile_suffix (fun d => d != c) (l := text.toList)).length_le
  unfold splitFirst
  rw [String.length_ofList, List.length_drop, ← String.length_toList]
  omega

end Dataflow.Text
