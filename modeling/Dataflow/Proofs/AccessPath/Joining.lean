import Dataflow.AccessPath.Diagnostic
import Dataflow.Proofs.AccessPath.Cut

/-!
# Paths that are joined are cut apart again

Texts joined with dots are cut into these texts when each of them is solid and brackets do not reach
across a dot. Two paths put one behind the other are cut like each alone, and so validated like each
alone, when the brackets of the first one are balanced. The depth may fall below zero on the way.

* `Token.shift k`, `Diagnostic.shift k`: what stands `k` characters further on.
* `offset front`: where a path starts that is put behind `front`.

Results:
* `tokens_join_eq_iff`: the lists that are cut apart again.
* `tokens_append`, `diagnostics_append`: behind a balanced path, tokens and diagnostics are shifted.
* `append_exact`: putting together is a monoid, and the balanced paths are those that leave the
  tokens of every path behind them alone.
-/

namespace Dataflow

/-- The range `k` characters further on. -/
def Range.shift (k : Nat) (range : Range) : Range :=
  ⟨range.start + k, range.stop + k⟩

theorem Range.isEmpty_shift (k : Nat) (range : Range) :
    (range.shift k).isEmpty = range.isEmpty := by
  rw [Bool.eq_iff_iff, isEmpty, isEmpty, beq_iff_eq, beq_iff_eq]
  exact Nat.add_right_cancel_iff

namespace AccessPath

/-! ## Lists of texts -/

/-- **Cutting undoes joining** for the empty list and for the lists of token texts that are not one
empty text. No text may have a dot at depth zero, counted from its own start, and each but the last
has as many opening as closing brackets. -/
theorem tokens_join_eq_iff (ts : List String) :
    (tokens (join ts)).map Token.text = ts ↔
      ts = [] ∨
        (ts ≠ [""] ∧ (∀ text ∈ ts, Solid 0 text.toList) ∧ ∀ text ∈ ts.dropLast, Balanced text) := by
  rw [map_text_tokens]
  by_cases hempty : join ts = ""
  · rw [hempty, texts_empty]
    rcases join_eq_empty_iff.mp hempty with rfl | rfl
    · simp
    · simp
  have hnil : ts ≠ [] := fun h => hempty (join_eq_empty_iff.mpr (Or.inl h))
  have hone : ts ≠ [""] := fun h => hempty (join_eq_empty_iff.mpr (Or.inr h))
  have hcut : texts (join ts) = ts ↔ TokenList ts := by
    constructor
    · intro h
      rw [← h]
      exact tokenList_texts hempty
    · intro h
      exact texts_join h hempty
  rw [hcut, tokenList_iff, or_iff_right hnil, and_iff_right hnil, and_iff_right hone]

/-- The depth may fall below zero inside a text, but it must come back before the text ends. -/
example :
    texts (join ["]a.b[", "c"]) = ["]a.b[", "c"] ∧ texts (join ["a[", "b]"]) = ["a[.b]"] := by
  decide

/-! ## Shifting -/

/-- The token `k` characters further on. -/
def Token.shift (k : Nat) (token : Token) : Token :=
  { token with range := token.range.shift k }

/-- The diagnostic `k` characters further on. -/
def Diagnostic.shift (k : Nat) (diagnostic : Diagnostic) : Diagnostic :=
  { diagnostic with range := diagnostic.range.shift k }

/-- A token has the problem it has elsewhere. -/
theorem Token.problem?_shift (k : Nat) (token : Token) :
    (token.shift k).problem? = token.problem? := by
  unfold problem? shift
  rw [Range.isEmpty_shift]

theorem layOut_add (k : Nat) : ∀ (start : Nat) (ts : List String),
    layOut (start + k) ts = (layOut start ts).map (Token.shift k)
  | _, [] => rfl
  | start, text :: rest => by
    rw [layOut, layOut, List.map_cons, ← layOut_add k, Nat.add_right_comm start k,
      Nat.add_right_comm (start + text.length) k]
    rfl

theorem length_join_cons {text : String} {ts : List String} (h : ts ≠ []) :
    (join (text :: ts)).length = text.length + 1 + (join ts).length := by
  rw [join_cons h, String.length_append, String.length_append]
  rfl

/-- What is laid out behind other texts starts one character behind them. -/
theorem layOut_append : ∀ (start : Nat) {front : List String} (back : List String), front ≠ [] →
    layOut start (front ++ back) =
      layOut start front ++ layOut (start + (join front).length + 1) back
  | start, [text], back, _ => by
    rw [List.singleton_append, layOut, join_singleton]
    rfl
  | start, text :: next :: rest, back, _ => by
    have hne := List.cons_ne_nil next rest
    rw [List.cons_append, layOut, layOut, layOut_append _ back hne, List.cons_append,
      length_join_cons hne]
    simp only [Nat.add_assoc]

/-! ## One path behind another -/

theorem append_ne_empty {front : String} (hfront : front ≠ "") (back : String) :
    append front back ≠ "" := by
  rw [append, if_neg hfront]
  split_ifs
  · exact hfront
  · simp [String.append_eq_empty_iff]

theorem append_assoc (a b c : String) : append (append a b) c = append a (append b c) := by
  by_cases ha : a = ""
  · subst ha
    rw [append_empty_left, append_empty_left]
  by_cases hb : b = ""
  · subst hb
    rw [append_empty_right, append_empty_left]
  by_cases hc : c = ""
  · subst hc
    rw [append_empty_right, append_empty_right]
  have hbc := append_ne_empty hb c
  rw [append_of_ne (append_ne_empty ha b) hc, append_of_ne ha hbc, append_of_ne ha hb,
    append_of_ne hb hc]
  simp only [String.append_assoc]

/-- Where a path starts that is put behind another. -/
def offset (front : String) : Nat :=
  if front = "" then 0 else front.length + 1

/-- **Behind a balanced path the tokens are shifted.** -/
theorem tokens_append {front : String} (h : Balanced front) (back : String) :
    tokens (append front back) =
      tokens front ++ (tokens back).map (Token.shift (offset front)) := by
  unfold tokens offset
  rw [texts_append h]
  split_ifs with hfront
  · rw [hfront, texts_empty, List.nil_append, ← layOut_add]
    rfl
  · have hne : texts front ≠ [] := fun hnil => hfront (texts_eq_nil_iff.mp hnil)
    rw [layOut_append 0 _ hne, join_texts, ← layOut_add, Nat.add_assoc]

/-- **Behind a balanced path the diagnostics are shifted.** -/
theorem diagnostics_append {front : String} (h : Balanced front) (back : String) :
    diagnostics (append front back) =
      diagnostics front ++ (diagnostics back).map (Diagnostic.shift (offset front)) := by
  unfold diagnostics
  rw [tokens_append h, List.filterMap_append, List.filterMap_map, List.map_filterMap]
  congr 2
  funext token
  rw [Function.comp_apply, Token.problem?_shift, Option.map_map]
  rfl

theorem balanced_join : ∀ {ts : List String}, (∀ text ∈ ts, Balanced text) → Balanced (join ts)
  | [], _ => rfl
  | [text], h => by
    rw [join_singleton]
    exact h text List.mem_cons_self
  | text :: next :: rest, h => by
    have hrest := balanced_join fun other hother => h other (List.mem_cons_of_mem text hother)
    have htext := h text List.mem_cons_self
    rw [balanced_iff_depthOf] at hrest htext ⊢
    rw [join_cons (List.cons_ne_nil next rest), String.toList_append, String.toList_append,
      depthOf_append, depthOf_append, hrest, htext]
    rfl

/-- A path that leaves the token of a path behind it alone is balanced. -/
theorem balanced_of_texts_append {front back : String} (hback : back ≠ "")
    (h : texts (append front back) = texts front ++ texts back) : Balanced front := by
  by_cases hfront : front = ""
  · subst hfront
    rfl
  have htokens := tokenList_texts (append_ne_empty hfront back)
  rw [h, tokenList_append (fun hnil => hfront (texts_eq_nil_iff.mp hnil))
    fun hnil => hback (texts_eq_nil_iff.mp hnil)] at htokens
  rw [← join_texts front]
  exact balanced_join htokens.2.1

/-- **Putting paths together** is associative and the empty path is its unit. The balanced paths are
those that leave every path behind them alone: the whole has the tokens and the diagnostics of both,
those of the second one shifted. -/
theorem append_exact :
    (∀ a b c, append (append a b) c = append a (append b c)) ∧
      (∀ path, append "" path = path ∧ append path "" = path) ∧
      ∀ front, Balanced front ↔ ∀ back,
        tokens (append front back) =
            tokens front ++ (tokens back).map (Token.shift (offset front)) ∧
          diagnostics (append front back) =
            diagnostics front ++ (diagnostics back).map (Diagnostic.shift (offset front)) := by
  refine ⟨append_assoc, fun path => ⟨append_empty_left path, append_empty_right path⟩, ?_⟩
  intro front
  constructor
  · intro h back
    exact ⟨tokens_append h back, diagnostics_append h back⟩
  · intro h
    have htokens := congrArg (List.map Token.text) (h "a").1
    rw [List.map_append, List.map_map, map_text_tokens, map_text_tokens] at htokens
    refine balanced_of_texts_append (by decide : "a" ≠ "") ?_
    rw [htokens, ← map_text_tokens "a"]
    rfl

end AccessPath

end Dataflow
