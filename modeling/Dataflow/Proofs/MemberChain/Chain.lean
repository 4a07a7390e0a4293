import Dataflow.Codec.MemberChain
import Dataflow.Proofs.AccessPath.Cut
import Dataflow.Proofs.Text.Ends

/-!
# The chain at the start of a path

A link is a token `Instance` or `Member[name]`. The chain of a path is its longest initial run of
links, and what `parse` makes of the path column depends on the chain only.

* `Separable method position`: the path column that is written for a method and a position is cut
  between the two when it is read.

Results:
* `ofTokens_eq`: `Chain.ofTokens` splits the tokens into the links in front and the rest.
* `separable_parse`: the method and the suffix that are read from any path column are separable.
* `chain_pathOf`: from the path column of a separable method and position the two are read back.
-/

namespace Dataflow.MemberChain

open AccessPath

/-! ## Links -/

/-- A token that a chain goes on with. -/
def IsLink (token : String) : Prop :=
  token = "Instance" ∨
    ∃ name, name ≠ "" ∧ '\n' ∉ name.toList ∧ token = "Member[" ++ name ++ "]"

theorem memberName?_eq_some_iff {token name : String} :
    memberName? token = some name ↔
      name ≠ "" ∧ '\n' ∉ name.toList ∧ token = "Member[" ++ name ++ "]" := by
  unfold memberName?
  rw [Option.filter_eq_some_iff, Text.bracketed?_eq_some_iff,
    show "Member" ++ "[" = "Member[" from rfl]
  simp only [Bool.and_eq_true, bne_iff_ne, Bool.not_eq_true', List.contains_eq_mem,
    decide_eq_false_iff_not]
  tauto

theorem memberName?_instance : memberName? "Instance" = none := by decide

theorem isLink_iff {token : String} :
    IsLink token ↔ token = "Instance" ∨ (memberName? token).isSome := by
  simp only [IsLink, Option.isSome_iff_exists, memberName?_eq_some_iff]

instance : DecidablePred IsLink := fun _ => decidable_of_iff _ isLink_iff.symm

/-- **A chain is the longest initial run of links.** -/
theorem ofTokens_eq : ∀ tokens : List String,
    Chain.ofTokens tokens =
      ⟨(tokens.takeWhile (IsLink ·)).filterMap memberName?,
        decide ("Instance" ∈ tokens.takeWhile (IsLink ·)), tokens.dropWhile (IsLink ·)⟩
  | [] => rfl
  | token :: tokens => by
    have ih := ofTokens_eq tokens
    unfold Chain.ofTokens
    cases hname : memberName? token with
    | some name =>
      have hlink : IsLink token := isLink_iff.mpr (Or.inr (by rw [hname]; rfl))
      have hne : "Instance" ≠ token := by
        rintro rfl
        rw [memberName?_instance] at hname
        exact absurd hname (by simp)
      simp [ih, hlink, hname, hne]
    | none =>
      by_cases htoken : token = "Instance"
      · subst htoken
        have hlink : IsLink "Instance" := Or.inl rfl
        simp [ih, hlink, memberName?_instance]
      · have hlink : ¬ IsLink token := by
          rw [isLink_iff, hname]
          simpa using htoken
        simp [htoken, hlink]

theorem isLink_of_mem_chain {tokens : List String} {token : String}
    (h : token ∈ tokens.takeWhile (IsLink ·)) : IsLink token :=
  of_decide_eq_true (List.mem_takeWhile_imp (p := (IsLink ·)) h)

/-! ## Separable columns -/

/-- The path column of a method and a position falls apart into these two. -/
structure Separable (method position : String) : Prop where
  /-- The token of the method names it, and a position may follow. -/
  method : method = "" ∨
    ('\n' ∉ method.toList ∧ Solid 0 ("Member[" ++ method ++ "]").toList ∧
      (position = "" ∨ AccessPath.Balanced method))
  /-- The position does not go on with the chain. -/
  position : position = "" ∨ ∀ token ∈ (texts position).head?, ¬ IsLink token

theorem balanced_member {name : String} :
    AccessPath.Balanced ("Member[" ++ name ++ "]") ↔ AccessPath.Balanced name :=
  @balanced_bracketed "Member" name rfl

theorem parse_method (column path : String) :
    (parse column path).method = (Chain.ofTokens (texts path)).names.getLast?.getD "" := rfl

theorem parse_suffix (column path : String) :
    (parse column path).suffix = join (Chain.ofTokens (texts path)).rest := rfl

/-- The links of a path in front of more tokens. -/
theorem tokenList_links {path : String} (hpath : path ≠ "") :
    TokenList ((texts path).takeWhile (IsLink ·) ++ (texts path).dropWhile (IsLink ·)) := by
  rw [List.takeWhile_append_dropWhile]
  exact tokenList_texts hpath

/-- A link that tokens follow is balanced. -/
theorem balanced_of_mem_links {path token : String}
    (hrest : (texts path).dropWhile (IsLink ·) ≠ [])
    (htoken : token ∈ (texts path).takeWhile (IsLink ·)) : AccessPath.Balanced token := by
  have hpath : path ≠ "" := by
    rintro rfl
    exact hrest rfl
  have hlist := tokenList_links hpath
  exact ((tokenList_append (List.ne_nil_of_mem htoken) hrest).mp hlist).2.1 token htoken

/-- The tokens after the chain are the tokens of their join. -/
theorem texts_join_rest {path : String} (hjoin : join ((texts path).dropWhile (IsLink ·)) ≠ "") :
    texts (join ((texts path).dropWhile (IsLink ·))) = (texts path).dropWhile (IsLink ·) := by
  have hrest : (texts path).dropWhile (IsLink ·) ≠ [] := fun h => hjoin (by rw [h]; rfl)
  have hpath : path ≠ "" := by
    rintro rfl
    exact hrest rfl
  have hlist := tokenList_links hpath
  refine texts_join ?_ hjoin
  by_cases hlinks : (texts path).takeWhile (IsLink ·) = []
  · rwa [hlinks, List.nil_append] at hlist
  · exact ((tokenList_append hlinks hrest).mp hlist).2.2

/-- **What is read from a path column is separable.** -/
theorem separable_parse (column path : String) :
    Separable (parse column path).method (parse column path).suffix := by
  rw [parse_method, parse_suffix, ofTokens_eq]
  constructor
  · cases hlast : (((texts path).takeWhile (IsLink ·)).filterMap memberName?).getLast? with
    | none => exact Or.inl rfl
    | some name =>
      refine Or.inr ?_
      obtain ⟨token, hmem, hname⟩ := List.mem_filterMap.mp (List.mem_of_getLast? hlast)
      obtain ⟨-, hline, rfl⟩ := memberName?_eq_some_iff.mp hname
      have hpath : path ≠ "" := by
        rintro rfl
        exact List.not_mem_nil hmem
      have hsolid := (tokenList_texts hpath).solid _ (List.takeWhile_subset _ hmem)
      refine ⟨hline, hsolid, ?_⟩
      by_cases hrest : (texts path).dropWhile (IsLink ·) = []
      · exact Or.inl (by rw [hrest]; rfl)
      · exact Or.inr (balanced_member.mp (balanced_of_mem_links hrest hmem))
  · by_cases hjoin : join ((texts path).dropWhile (IsLink ·)) = ""
    · exact Or.inl hjoin
    · refine Or.inr fun token htoken => ?_
      rw [texts_join_rest hjoin] at htoken
      have hnot := List.head?_dropWhile_not (IsLink ·) (texts path)
      rw [htoken] at hnot
      simpa using hnot

/-- A chain that names no method has no member. -/
theorem members_eq_nil {tokens : List String}
    (h : (tokens.filterMap memberName?).getLast?.getD "" = "") :
    tokens.filterMap memberName? = [] := by
  cases hlast : (tokens.filterMap memberName?).getLast? with
  | none => exact List.getLast?_eq_none_iff.mp hlast
  | some name =>
    rw [hlast, Option.getD_some] at h
    obtain ⟨token, -, hname⟩ := List.mem_filterMap.mp (List.mem_of_getLast? hlast)
    exact absurd h (memberName?_eq_some_iff.mp hname).1

/-- Columns that name neither a method nor a position name a method's type: the path is empty or
holds links `Instance` only. -/
theorem parse_alone {column path : String} (hmethod : (parse column path).method = "")
    (hsuffix : (parse column path).suffix = "") : (parse column path).endpointType = .method := by
  by_cases hpath : path = ""
  · subst hpath
    rfl
  rw [parse_method, ofTokens_eq] at hmethod
  rw [parse_suffix, ofTokens_eq] at hsuffix
  have hnames := members_eq_nil hmethod
  have hvia : (Chain.ofTokens (texts path)).viaInstance = true := by
    rw [ofTokens_eq]
    refine decide_eq_true ?_
    cases hlinks : (texts path).takeWhile (IsLink ·) with
    | nil =>
      have hall := List.takeWhile_append_dropWhile (p := (decide <| IsLink ·)) (l := texts path)
      rw [hlinks, List.nil_append] at hall
      simp only [hall, join_texts] at hsuffix
      exact absurd hsuffix hpath
    | cons token links =>
      have hmem : token ∈ (texts path).takeWhile (IsLink ·) := by
        rw [hlinks]
        exact List.mem_cons_self
      rcases isLink_iff.mp (isLink_of_mem_chain hmem) with rfl | hmember
      · exact List.mem_cons_self
      · obtain ⟨name, hname⟩ := Option.isSome_iff_exists.mp hmember
        have hin := List.mem_filterMap.mpr ⟨token, hmem, hname⟩
        rw [hnames] at hin
        exact absurd hin List.not_mem_nil
  unfold parse
  simp [hvia]

theorem parse_endpointType (column path : String) :
    (parse column path).endpointType = .method ∨ (parse column path).endpointType = .function := by
  unfold parse
  simp only
  split_ifs
  · exact Or.inl rfl
  · exact Or.inr rfl

/-! ## Reading a written column -/

theorem pathOf_eq_empty_iff {method position : String} :
    pathOf method position = "" ↔ method = "" ∧ position = "" := by
  unfold pathOf methodPath append
  by_cases hm : method = ""
  · simp [hm]
  · by_cases hp : position = "" <;> simp [hm, hp]

/-- The tokens of a written path column. -/
theorem texts_pathOf {method position : String} (h : Separable method position) :
    texts (pathOf method position) =
      (if method = "" then [] else ["Member[" ++ method ++ "]"]) ++ texts position := by
  unfold pathOf methodPath
  split_ifs with hm
  · rw [append_empty_left, List.nil_append]
  · obtain hm' | ⟨-, hsolid, hfollow⟩ := h.method
    · exact absurd hm' hm
    have hone : texts ("Member[" ++ method ++ "]") = ["Member[" ++ method ++ "]"] :=
      texts_of_solid (by simp) hsolid
    obtain rfl | hbal := hfollow
    · rw [append_empty_right, hone, texts_empty, List.append_nil]
    · rw [texts_append (balanced_member.mpr hbal), hone]

theorem ofTokens_texts_position {method position : String} (h : Separable method position) :
    Chain.ofTokens (texts position) = ⟨[], false, texts position⟩ := by
  rw [ofTokens_eq]
  obtain rfl | hhead := h.position
  · rfl
  · cases hts : texts position with
    | nil => rfl
    | cons token tokens =>
      have hlink : ¬ IsLink token := hhead token (by rw [hts]; rfl)
      simp [hlink]

/-- **A separable method and position are read back.** -/
theorem chain_pathOf {method position : String} (h : Separable method position) :
    Chain.ofTokens (texts (pathOf method position)) =
      ⟨if method = "" then [] else [method], false, texts position⟩ := by
  rw [texts_pathOf h]
  split_ifs with hm
  · exact ofTokens_texts_position h
  · obtain hm' | ⟨hline, -, -⟩ := h.method
    · exact absurd hm' hm
    have hname : memberName? ("Member[" ++ method ++ "]") = some method :=
      memberName?_eq_some_iff.mpr ⟨hm, hline, rfl⟩
    rw [List.singleton_append, Chain.ofTokens, hname]
    simp only [ofTokens_texts_position h]

end Dataflow.MemberChain
