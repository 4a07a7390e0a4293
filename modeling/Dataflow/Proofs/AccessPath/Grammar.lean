import Dataflow.AccessPath.Diagnostic
import Dataflow.Proofs.AccessPath.Cut
import Mathlib.Data.List.TakeWhile

/-!
# The grammar of access paths

A token is a word of ASCII letters, digits and underscores, and there may be one pair of brackets
behind the word, around any text without brackets. A path of the grammar is put together from one
token or more.

* `IsToken`: the grammar of a token.
* `Spells ts path`: the tokens `ts` of the grammar, put together, are `path`.

Results:
* `isWellFormed_iff`: the check of a token text decides the grammar of tokens.
* `IsToken.solid`, `IsToken.balanced`: a path is not cut inside a token of the grammar, and such a
  token leads back to depth zero.
* `Spells.eq_texts`: what spells a path is its token texts.
* `diagnostics_exact`: the paths without diagnostics are those of the grammar and the empty one; the
  diagnostics of a path are those of its tokens that are not of the grammar.
-/

namespace Dataflow.AccessPath

/-! ## Tokens of the grammar -/

/-- A letter, a digit or an underscore. -/
def WordChar (c : Char) : Prop :=
  ('A' ≤ c ∧ c ≤ 'Z') ∨ ('a' ≤ c ∧ c ≤ 'z') ∨ ('0' ≤ c ∧ c ≤ '9') ∨ c = '_'

/-- A text of such characters, at least one. -/
def IsWord (text : String) : Prop :=
  text ≠ "" ∧ ∀ c ∈ text.toList, WordChar c

/-- The grammar of a token. -/
inductive IsToken : String → Prop
  | word {label : String} (hlabel : IsWord label) : IsToken label
  | bracketed {label content : String} (hlabel : IsWord label)
      (hcontent : ∀ c ∈ content.toList, c ≠ '[' ∧ c ≠ ']') :
      IsToken (label ++ "[" ++ content ++ "]")

theorem isWordChar_iff {c : Char} : isWordChar c = true ↔ WordChar c := by
  have halnum : c.isAlphanum =
      ((decide ('A' ≤ c ∧ c ≤ 'Z') || decide ('a' ≤ c) && decide (c ≤ 'z')) ||
        decide ('0' ≤ c) && decide (c ≤ '9')) := rfl
  simp only [isWordChar, WordChar, halnum, Bool.or_eq_true, Bool.and_eq_true, decide_eq_true_eq,
    beq_iff_eq, or_assoc]

theorem isBracket_iff {c : Char} : isBracket c = true ↔ c = '[' ∨ c = ']' := by
  simp [isBracket]

theorem IsWord.not_mem {label : String} (h : IsWord label) {c : Char} (hc : ¬ WordChar c) :
    c ∉ label.toList :=
  fun hmem => hc (h.2 c hmem)

theorem IsWord.balanced {label : String} (h : IsWord label) : Balanced label := by
  unfold Balanced
  rw [List.count_eq_zero.mpr (h.not_mem (c := '[') (by simp [WordChar])),
    List.count_eq_zero.mpr (h.not_mem (c := ']') (by simp [WordChar]))]

theorem IsToken.ne_empty {text : String} (h : IsToken text) : text ≠ "" := by
  cases h with
  | word hlabel => exact hlabel.1
  | bracketed hlabel hcontent => simp

theorem IsToken.solid {text : String} (h : IsToken text) : Solid 0 text.toList := by
  cases h with
  | word hlabel => exact solid_of_not_mem (hlabel.not_mem (by simp [WordChar]))
  | bracketed hlabel hcontent =>
    exact solid_bracketed (hlabel.not_mem (by simp [WordChar])) hlabel.balanced
      fun hclose => (hcontent _ hclose).2 rfl

theorem IsToken.balanced {text : String} (h : IsToken text) : Balanced text := by
  cases h with
  | word hlabel => exact hlabel.balanced
  | @bracketed label content hlabel hcontent =>
    refine (balanced_bracketed hlabel.balanced).mpr ?_
    unfold Balanced
    rw [List.count_eq_zero.mpr fun hopen => (hcontent _ hopen).1 rfl,
      List.count_eq_zero.mpr fun hclose => (hcontent _ hclose).2 rfl]

/-! ## The check of a token text -/

/-- What stands behind the label of a token. -/
theorem isBracketPart_iff {cs : List Char} :
    isBracketPart cs = true ↔
      cs = [] ∨ ∃ content, (∀ c ∈ content, c ≠ '[' ∧ c ≠ ']') ∧ cs = '[' :: (content ++ [']']) := by
  cases cs with
  | nil => simp [isBracketPart]
  | cons c cs =>
    simp only [isBracketPart, Bool.and_eq_true, beq_iff_eq, reduceCtorEq, false_or, List.cons.injEq]
    constructor
    · rintro ⟨rfl, hclose⟩
      refine ⟨cs.takeWhile (fun d => !isBracket d), fun d hd => ?_, rfl, ?_⟩
      · have hnot := List.mem_takeWhile_imp (p := fun d => !isBracket d) hd
        rw [Bool.not_eq_true', ← Bool.not_eq_true, isBracket_iff, not_or] at hnot
        exact hnot
      · rw [← hclose, List.takeWhile_append_dropWhile]
    · rintro ⟨content, hcontent, rfl, rfl⟩
      refine ⟨rfl, ?_⟩
      have hall : ∀ d ∈ content, (!isBracket d) = true := by
        intro d hd
        rw [Bool.not_eq_true', ← Bool.not_eq_true, isBracket_iff, not_or]
        exact hcontent d hd
      rw [List.dropWhile_append_of_pos hall]
      rfl

/-- **The check of a token text is exact.** -/
theorem isWellFormed_iff {text : String} : isWellFormed text = true ↔ IsToken text := by
  simp only [isWellFormed, Bool.and_eq_true, Bool.not_eq_true', List.isEmpty_eq_false_iff,
    isBracketPart_iff]
  constructor
  · rintro ⟨hne, hrest⟩
    have hlabel : IsWord (String.ofList (text.toList.takeWhile isWordChar)) := by
      refine ⟨by simpa using hne, fun c hc => ?_⟩
      rw [String.toList_ofList] at hc
      exact isWordChar_iff.mp (List.mem_takeWhile_imp hc)
    have hsplit := List.takeWhile_append_dropWhile (p := isWordChar) (l := text.toList)
    rcases hrest with hnil | ⟨content, hcontent, hrest⟩
    · rw [hnil, List.append_nil] at hsplit
      rw [hsplit, String.ofList_toList] at hlabel
      exact .word hlabel
    · have htext : text = String.ofList (text.toList.takeWhile isWordChar) ++ "[" ++
          String.ofList content ++ "]" := by
        rw [← String.toList_inj, toList_bracketed, String.toList_ofList, String.toList_ofList,
          ← hrest, hsplit]
      rw [htext]
      exact .bracketed hlabel (by rwa [String.toList_ofList])
  · intro h
    cases h with
    | word hlabel =>
      have hall : ∀ c ∈ text.toList, isWordChar c = true :=
        fun c hc => isWordChar_iff.mpr (hlabel.2 c hc)
      rw [List.takeWhile_eq_self_iff.mpr hall, List.dropWhile_eq_nil_iff.mpr hall]
      exact ⟨fun hnil => hlabel.1 (String.toList_eq_nil_iff.mp hnil), Or.inl rfl⟩
    | @bracketed label content hlabel hcontent =>
      have hall : ∀ c ∈ label.toList, isWordChar c = true :=
        fun c hc => isWordChar_iff.mpr (hlabel.2 c hc)
      have hstop : isWordChar '[' = false := rfl
      rw [toList_bracketed, List.takeWhile_append_of_pos hall, List.dropWhile_append_of_pos hall,
        List.takeWhile_cons_of_neg (by simp [hstop]), List.dropWhile_cons_of_neg (by simp [hstop]),
        List.append_nil]
      exact ⟨fun hnil => hlabel.1 (String.toList_eq_nil_iff.mp hnil),
        Or.inr ⟨content.toList, hcontent, rfl⟩⟩

instance : DecidablePred IsToken := fun _ => decidable_of_iff _ isWellFormed_iff

/-! ## Paths of the grammar -/

/-- Tokens of the grammar, at least one, that are put together to a path. -/
structure Spells (ts : List String) (path : String) : Prop where
  ne_nil : ts ≠ []
  isToken : ∀ text ∈ ts, IsToken text
  join : join ts = path

/-- Tokens of the grammar can be the token texts of a path. -/
theorem tokenList_of_isToken : ∀ {ts : List String}, ts ≠ [] → (∀ text ∈ ts, IsToken text) →
    TokenList ts
  | [text], _, h => (h text List.mem_cons_self).solid
  | text :: next :: rest, _, h => by
    have hne := List.cons_ne_nil next rest
    have htext := h text List.mem_cons_self
    have hrest := tokenList_of_isToken hne fun t ht => h t (List.mem_cons_of_mem text ht)
    exact (tokenList_cons hne).mpr ⟨htext.solid, htext.balanced, hrest⟩

/-- **A spelling is determined**: it is the list of the token texts. -/
theorem Spells.eq_texts {ts : List String} {path : String} (h : Spells ts path) :
    ts = texts path := by
  have hne : AccessPath.join ts ≠ "" := fun hempty => by
    rcases join_eq_empty_iff.mp hempty with hnil | rfl
    · exact h.ne_nil hnil
    · exact (h.isToken "" List.mem_cons_self).ne_empty rfl
  rw [← h.join, texts_join (tokenList_of_isToken h.ne_nil h.isToken) hne]

/-- A path other than the empty one is of the grammar iff its tokens are. -/
theorem exists_spells_iff {path : String} (hpath : path ≠ "") :
    (∃ ts, Spells ts path) ↔ ∀ text ∈ texts path, IsToken text := by
  constructor
  · rintro ⟨ts, h⟩
    rw [← h.eq_texts]
    exact h.isToken
  · intro h
    exact ⟨texts path, fun hnil => hpath (texts_eq_nil_iff.mp hnil), h, join_texts path⟩

/-! ## Diagnostics -/

theorem isEmpty_range_iff {path : String} {token : Token} (h : token ∈ tokens path) :
    token.range.isEmpty = true ↔ token.text = "" := by
  rw [Range.isEmpty, beq_iff_eq, stop_of_mem_layOut h, ← String.length_eq_zero_iff]
  omega

/-- The problem of a token of a path. -/
theorem problem?_eq {path : String} {token : Token} (h : token ∈ tokens path) :
    token.problem? =
      if IsToken token.text then none
      else some (if token.text = "" then .emptyToken else .malformed) := by
  unfold Token.problem?
  simp only [isEmpty_range_iff h, isWellFormed_iff]
  by_cases hempty : token.text = ""
  · have hnot : ¬ IsToken token.text := fun htoken => htoken.ne_empty hempty
    rw [if_pos hempty, if_neg hnot, if_pos hempty]
  · rw [if_neg hempty, if_neg hempty]

/-- There is one diagnostic for each token that is not of the grammar. -/
theorem diagnostics_eq (path : String) :
    diagnostics path =
      ((tokens path).filter fun token => ¬ IsToken token.text).map fun token =>
        ⟨token.range, if token.text = "" then .emptyToken else .malformed⟩ := by
  rw [← List.filterMap_eq_map, List.filterMap_filter, diagnostics]
  refine List.filterMap_congr fun token htoken => ?_
  rw [problem?_eq htoken]
  by_cases h : IsToken token.text <;> simp [h]

theorem diagnostics_eq_nil_iff {path : String} :
    diagnostics path = [] ↔ ∀ text ∈ texts path, IsToken text := by
  rw [diagnostics_eq, List.map_eq_nil_iff, List.filter_eq_nil_iff, ← map_text_tokens,
    List.forall_mem_map]
  simp

/-- **Validation is exact.** A path has no diagnostics iff it is empty or of the grammar, and then
it is spelled in one way, by its token texts. Otherwise there is one diagnostic for each token that
is not of the grammar, in token order and with the range of the token. -/
theorem diagnostics_exact (path : String) :
    (diagnostics path = [] ↔ path = "" ∨ ∃ ts, Spells ts path) ∧
      (∀ ts, Spells ts path → ts = (tokens path).map Token.text) ∧
      (diagnostics path).map (fun diagnostic => (diagnostic.range, diagnostic.problem.message)) =
        ((tokens path).filter fun token => ¬ IsToken token.text).map fun token =>
          (token.range,
            if token.text = "" then "Unexpected empty token" else "Invalid access path") := by
  refine ⟨?_, fun ts h => ?_, ?_⟩
  · rw [diagnostics_eq_nil_iff]
    by_cases hpath : path = ""
    · subst hpath
      simp [texts_empty]
    · rw [exists_spells_iff hpath, or_iff_right hpath]
  · rw [map_text_tokens, h.eq_texts]
  · rw [diagnostics_eq, List.map_map]
    refine List.map_congr_left fun token _ => ?_
    by_cases hempty : token.text = "" <;> simp [hempty, Problem.message]

example :
    diagnostics "A[b[c].d].E." = [⟨⟨0, 9⟩, .malformed⟩, ⟨⟨12, 12⟩, .emptyToken⟩] := by decide

end Dataflow.AccessPath
