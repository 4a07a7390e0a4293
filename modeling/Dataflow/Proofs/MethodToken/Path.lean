import Dataflow.Codec.MethodToken
import Dataflow.Proofs.AccessPath.Cut
import Dataflow.Proofs.Text.Ends

/-!
# Paths with a method token

A path names a method by its first token, `Method[name]`; the tokens after it are the position.

* `NamesMethod token`: the token has the form `Method[name]`.
* `Separable method position`: the path written for a method and a position is cut between the two
  when it is read.
* `leadingToken`, `withoutEmptyEnd`: what becomes of a path that is read and written again, where
  only its method is kept and where its position is kept too.

Results:
* `splitPath_cases`: all that `splitPath` can do.
* `separable_iff`: a method and a position are read back from their path iff they are separable.
* `separable_splitPath`: what is read from any path is separable.
* `methodPath_splitPath`, `pathOf_splitPath`: what was read, written again.
-/

namespace Dataflow.MethodToken

open AccessPath

/-! ## Reading a path -/

/-- A token that names a method. -/
def NamesMethod (token : String) : Prop :=
  ∃ name, name ≠ "" ∧ ']' ∉ name.toList ∧ token = "Method[" ++ name ++ "]"

theorem methodName?_eq_some_iff {token name : String} :
    methodName? token = some name ↔
      name ≠ "" ∧ ']' ∉ name.toList ∧ token = "Method[" ++ name ++ "]" := by
  unfold methodName?
  rw [Option.filter_eq_some_iff, Text.bracketed?_eq_some_iff,
    show "Method" ++ "[" = "Method[" from rfl]
  simp only [Bool.and_eq_true, bne_iff_ne, Bool.not_eq_true', List.contains_eq_mem,
    decide_eq_false_iff_not]
  tauto

theorem namesMethod_iff {token : String} : NamesMethod token ↔ (methodName? token).isSome := by
  simp only [NamesMethod, Option.isSome_iff_exists, methodName?_eq_some_iff]

instance : DecidablePred NamesMethod := fun _ => decidable_of_iff _ namesMethod_iff.symm

theorem splitPath_of_token {path name : String} {rest : List String} (hname : name ≠ "")
    (hclosed : ']' ∉ name.toList) (h : texts path = ("Method[" ++ name ++ "]") :: rest) :
    splitPath path = (name, join rest) := by
  unfold splitPath
  rw [h]
  simp only [methodName?_eq_some_iff.mpr ⟨hname, hclosed, rfl⟩]

theorem splitPath_of_no_token {path : String}
    (h : ∀ token ∈ (texts path).head?, ¬ NamesMethod token) : splitPath path = ("", path) := by
  unfold splitPath
  cases htexts : texts path with
  | nil => rw [texts_eq_nil_iff.mp htexts]
  | cons first rest =>
    have hfirst := h first (by rw [htexts]; rfl)
    rw [namesMethod_iff, Option.not_isSome_iff_eq_none] at hfirst
    simp only [hfirst]

/-- **Reading a path.** Either its first token names a method and the others are the position, or
the whole path is the position. -/
theorem splitPath_cases (path : String) :
    (∃ name rest, name ≠ "" ∧ ']' ∉ name.toList ∧
        texts path = ("Method[" ++ name ++ "]") :: rest ∧ splitPath path = (name, join rest)) ∨
      ((∀ token ∈ (texts path).head?, ¬ NamesMethod token) ∧ splitPath path = ("", path)) := by
  by_cases h : ∀ token ∈ (texts path).head?, ¬ NamesMethod token
  · exact Or.inr ⟨h, splitPath_of_no_token h⟩
  · push Not at h
    obtain ⟨token, htoken, name, hname, hclosed, rfl⟩ := h
    obtain ⟨rest, hrest⟩ := List.head?_eq_some_iff.mp htoken
    exact Or.inl ⟨name, rest, hname, hclosed, hrest, splitPath_of_token hname hclosed hrest⟩

/-! ## Writing, then reading -/

/-- The path of a method and a position falls apart into these two. -/
structure Separable (method position : String) : Prop where
  /-- The token of the method ends with the method. -/
  closed : ']' ∉ method.toList
  /-- A position alone does not name a method. -/
  unnamed : method = "" → ∀ token ∈ (texts position).head?, ¬ NamesMethod token
  /-- A bracket that stays open takes in all that follows. -/
  alone : '[' ∈ method.toList → position = ""

/-- The token of a method is one token. -/
theorem texts_methodPath {method : String} (hmethod : method ≠ "") (hclosed : ']' ∉ method.toList) :
    texts (methodPath method) = ["Method[" ++ method ++ "]"] := by
  unfold methodPath
  rw [if_neg hmethod]
  exact texts_of_solid (by simp) (@solid_bracketed "Method" method (by decide) rfl hclosed)

/-- The token of a method without brackets leaves the tokens behind it alone. -/
theorem texts_pathOf {method position : String} (hmethod : method ≠ "")
    (hclosed : ']' ∉ method.toList) (hopen : '[' ∉ method.toList) :
    texts (pathOf method position) = ("Method[" ++ method ++ "]") :: texts position := by
  have hbalanced : AccessPath.Balanced method := by
    unfold AccessPath.Balanced
    rw [List.count_eq_zero.mpr hopen, List.count_eq_zero.mpr hclosed]
  have htoken : AccessPath.Balanced (methodPath method) := by
    unfold methodPath
    rw [if_neg hmethod]
    exact (@balanced_bracketed "Method" method rfl).mpr hbalanced
  unfold pathOf
  rw [texts_append htoken, texts_methodPath hmethod hclosed, List.singleton_append]

/-- **A separable method and position are read back.** -/
theorem splitPath_pathOf {method position : String} (h : Separable method position) :
    splitPath (pathOf method position) = (method, position) := by
  by_cases hmethod : method = ""
  · subst hmethod
    exact splitPath_of_no_token (h.unnamed rfl)
  by_cases hopen : '[' ∈ method.toList
  · obtain rfl := h.alone hopen
    have hpath : pathOf method "" = methodPath method := append_empty_right _
    rw [hpath, splitPath_of_token hmethod h.closed (texts_methodPath hmethod h.closed)]
    rfl
  · rw [splitPath_of_token hmethod h.closed (texts_pathOf hmethod h.closed hopen), join_texts]

/-- **What is read from a path is separable.** -/
theorem separable_splitPath (path : String) :
    Separable (splitPath path).1 (splitPath path).2 := by
  rcases splitPath_cases path with ⟨name, rest, hname, hclosed, htexts, hsplit⟩ | ⟨hhead, hsplit⟩
  · rw [hsplit]
    refine ⟨hclosed, fun hempty => absurd hempty hname, fun hopen => ?_⟩
    by_cases hrest : rest = []
    · rw [hrest]
      rfl
    -- A token that others follow is balanced, so its name has a closing bracket for the open one.
    have hpath : path ≠ "" := by
      rintro rfl
      exact absurd htexts (by simp [texts_empty])
    have htokens := tokenList_texts hpath
    rw [htexts, tokenList_cons hrest] at htokens
    have hbalanced : AccessPath.Balanced name :=
      (@balanced_bracketed "Method" name rfl).mp htokens.2.1
    unfold AccessPath.Balanced at hbalanced
    rw [List.count_eq_zero.mpr hclosed, List.count_eq_zero] at hbalanced
    exact absurd hopen hbalanced
  · rw [hsplit]
    exact ⟨List.not_mem_nil, fun _ => hhead, fun hopen => absurd hopen List.not_mem_nil⟩

/-- **The path of a method and a position is read back** iff these are separable. -/
theorem separable_iff {method position : String} :
    Separable method position ↔ splitPath (pathOf method position) = (method, position) := by
  refine ⟨splitPath_pathOf, fun h => ?_⟩
  have hsep := separable_splitPath (pathOf method position)
  rwa [h] at hsep

/-- A method alone is read back iff it has no closing bracket. -/
theorem separable_empty_iff {method : String} : Separable method "" ↔ ']' ∉ method.toList :=
  ⟨Separable.closed, fun h => ⟨h, fun _ _ htoken => absurd htoken (by simp [texts_empty]),
    fun _ => rfl⟩⟩

/-! ## Reading, then writing -/

/-- The first token of a path if it names a method, otherwise nothing. -/
def leadingToken (path : String) : String :=
  match texts path with
  | [] => ""
  | token :: _ => if NamesMethod token then token else ""

/-- A path without its last token and dot, if that token is empty and there is only the token of a
method in front of it; otherwise the path itself. -/
def withoutEmptyEnd (path : String) : String :=
  match texts path with
  | [token, last] => if NamesMethod token ∧ last = "" then token else path
  | _ => path

theorem methodPath_splitPath (path : String) :
    methodPath (splitPath path).1 = leadingToken path := by
  unfold leadingToken
  rcases splitPath_cases path with ⟨name, rest, hname, hclosed, htexts, hsplit⟩ | ⟨hhead, hsplit⟩
  · rw [hsplit, htexts, methodPath, if_neg hname]
    exact (if_pos ⟨name, hname, hclosed, rfl⟩).symm
  · rw [hsplit]
    cases htexts : texts path with
    | nil => rfl
    | cons token rest =>
      have hnot : ¬ NamesMethod token := hhead token (by rw [htexts]; rfl)
      simp [methodPath, hnot]

/-- **A path that is read is written again as it was**, up to an empty position. -/
theorem pathOf_splitPath (path : String) :
    pathOf (splitPath path).1 (splitPath path).2 = withoutEmptyEnd path := by
  unfold withoutEmptyEnd
  rcases splitPath_cases path with ⟨name, rest, hname, hclosed, htexts, hsplit⟩ | ⟨hhead, hsplit⟩
  · have hnames : NamesMethod ("Method[" ++ name ++ "]") := ⟨name, hname, hclosed, rfl⟩
    have hpath := join_texts path
    rw [htexts] at hpath
    rw [hsplit, htexts, pathOf, methodPath, if_neg hname]
    match rest with
    | [] =>
      rw [show join [] = "" from rfl, append_empty_right, ← hpath, join_singleton]
    | [last] =>
      simp only [hnames, true_and]
      split_ifs with hlast
      · rw [hlast, join_singleton, append_empty_right]
      · rw [append_join (by simp) (by rwa [join_singleton]), hpath]
    | next :: last :: more =>
      exact (append_join (by simp) (by simp [join_eq_empty_iff])).trans hpath
  · rw [hsplit]
    split
    · rename_i token last htexts
      have hnot : ¬ NamesMethod token := hhead token (by rw [htexts]; rfl)
      rw [if_neg fun h => hnot h.1]
      rfl
    · rfl

end Dataflow.MethodToken
