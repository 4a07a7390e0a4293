import Dataflow.AccessPath
import Mathlib.Data.List.Basic
import Mathlib.Tactic.SplitIfs
import Mathlib.Tactic.Tauto

/-!
# Where an access path is cut

What `pieces` and `texts` do, said without their recursion. The depth of a text is the number of its
opening brackets less the number of its closing ones; a path is cut at the dots where the depth of
what stands before them is zero.

* `depthOf`: the depth a text leads to, from zero.
* `Solid depth cs`: no dot of `cs` is a cut when `cs` is read from bracket depth `depth`.
* `WellCut depth ps`: texts that can be the pieces of a path read from `depth`. Each is solid, and
  each but the last leads back to depth zero.

Results:
* `pieces_eq_iff`: the pieces of a text are the one well-cut list that it is put together from.
* `tokenList_iff`: the lists that can be token texts, said text by text.
* `join_texts`: the token texts of a path, put together, are the path.
* `texts_join`: a well-cut list is the token texts of what is put together from it.
* `solid_bracketed`: a label with brackets behind it is one piece.
* `texts_join_front`: the tokens in front of a path are the token texts of what they are joined to.
* `append_right_injective`: what stands behind a path is determined by what the two make together.
* `texts_append`: behind a balanced path the tokens of another path are unchanged.
-/

namespace Dataflow.AccessPath

/-! ## Depth -/

/-- The bracket depth a text leads to. -/
def depthOf (cs : List Char) : Int :=
  (cs.count '[' : Int) - cs.count ']'

/-- Opening and closing brackets are equal in number. -/
def Balanced (text : String) : Prop :=
  text.toList.count '[' = text.toList.count ']'

theorem depthOf_nil : depthOf [] = 0 := rfl

theorem depthOf_cons (c : Char) (cs : List Char) :
    depthOf (c :: cs) = depthChange c + depthOf cs := by
  simp only [depthOf, depthChange, List.count_cons, beq_iff_eq]
  split_ifs with h1 h2 h2
  · subst h1
    exact absurd h2 (by decide)
  all_goals push_cast; omega

theorem depthOf_append (front back : List Char) :
    depthOf (front ++ back) = depthOf front + depthOf back := by
  simp only [depthOf, List.count_append]
  push_cast
  omega

theorem balanced_iff_depthOf {text : String} : Balanced text ↔ depthOf text.toList = 0 := by
  unfold Balanced depthOf
  omega

/-! ## Solid texts -/

/-- No dot of a text stands at depth zero when the text is read from `depth`. -/
def Solid (depth : Int) (cs : List Char) : Prop :=
  ∀ front back, cs = front ++ '.' :: back → depth + depthOf front ≠ 0

theorem solid_nil (depth : Int) : Solid depth [] := by
  intro front back h
  simp at h

theorem solid_cons {depth : Int} {c : Char} {cs : List Char} :
    Solid depth (c :: cs) ↔ ¬ (c = '.' ∧ depth = 0) ∧ Solid (depth + depthChange c) cs := by
  constructor
  · intro h
    refine ⟨?_, fun front back hcs => ?_⟩
    · rintro ⟨rfl, rfl⟩
      exact h [] cs rfl rfl
    · have hd := h (c :: front) back (by rw [hcs, List.cons_append])
      rw [depthOf_cons] at hd
      omega
  · rintro ⟨hc, h⟩ front back hcs
    cases front with
    | nil =>
      obtain ⟨rfl, -⟩ := List.cons.inj hcs
      rw [depthOf_nil]
      intro h0
      exact hc ⟨rfl, by omega⟩
    | cons d front =>
      obtain ⟨rfl, htail⟩ := List.cons.inj hcs
      have hd := h front back htail
      rw [depthOf_cons]
      omega

theorem solid_append : ∀ {depth : Int} {front back : List Char},
    Solid depth (front ++ back) ↔ Solid depth front ∧ Solid (depth + depthOf front) back
  | depth, [], back => by simp [solid_nil, depthOf_nil]
  | depth, c :: front, back => by
    rw [List.cons_append, solid_cons, solid_append, solid_cons, depthOf_cons, Int.add_assoc]
    tauto

theorem solid_of_not_mem {depth : Int} {cs : List Char} (h : '.' ∉ cs) : Solid depth cs := by
  rintro front back rfl
  exact absurd (List.mem_append_right front List.mem_cons_self) h

/-- Behind an opening bracket that stays open no dot is a cut. -/
theorem solid_of_open {depth : Int} {cs : List Char} (hopen : 0 < depth) (hclose : ']' ∉ cs) :
    Solid depth cs := by
  rintro front back rfl
  have hcount : front.count ']' = 0 :=
    List.count_eq_zero.mpr fun h => hclose (List.mem_append_left _ h)
  unfold depthOf
  omega

/-! ## A label with brackets behind it -/

theorem toList_bracketed (label content : String) :
    (label ++ "[" ++ content ++ "]").toList = label.toList ++ '[' :: (content.toList ++ [']']) := by
  simp

theorem balanced_bracketed {label content : String} (h : Balanced label) :
    Balanced (label ++ "[" ++ content ++ "]") ↔ Balanced content := by
  rw [balanced_iff_depthOf] at h
  rw [balanced_iff_depthOf, balanced_iff_depthOf, toList_bracketed, depthOf_append, depthOf_cons,
    depthOf_append, h, show depthChange '[' = 1 from rfl, show depthOf [']'] = -1 from rfl]
  omega

/-- A label without dots and a content without closing brackets are one piece. -/
theorem solid_bracketed {label content : String} (hdot : '.' ∉ label.toList) (h : Balanced label)
    (hclose : ']' ∉ content.toList) : Solid 0 (label ++ "[" ++ content ++ "]").toList := by
  rw [balanced_iff_depthOf] at h
  rw [toList_bracketed, solid_append, solid_cons, solid_append, h]
  refine ⟨solid_of_not_mem hdot, fun hc => absurd hc.1 (by decide), solid_of_open ?_ hclose,
    solid_of_not_mem (by decide)⟩
  decide

/-! ## Pieces -/

/-- Texts that can be the pieces of a path read from `depth`. -/
def WellCut : Int → List (List Char) → Prop
  | _, [] => False
  | depth, [piece] => Solid depth piece
  | depth, piece :: next :: rest =>
    Solid depth piece ∧ depth + depthOf piece = 0 ∧ WellCut 0 (next :: rest)

theorem wellCut_cons {depth : Int} {piece : List Char} {rest : List (List Char)}
    (hrest : rest ≠ []) :
    WellCut depth (piece :: rest) ↔
      Solid depth piece ∧ depth + depthOf piece = 0 ∧ WellCut 0 rest := by
  cases rest with
  | nil => exact absurd rfl hrest
  | cons next rest => rfl

theorem WellCut.ne_nil {depth : Int} {ps : List (List Char)} (h : WellCut depth ps) : ps ≠ [] := by
  rintro rfl
  exact h

theorem wellCut_consFirst {depth : Int} {c : Char} (hc : ¬ (c = '.' ∧ depth = 0)) :
    ∀ {ps : List (List Char)}, WellCut (depth + depthChange c) ps → WellCut depth (consFirst c ps)
  | [piece], h => solid_cons.mpr ⟨hc, h⟩
  | piece :: next :: rest, ⟨hs, hd, hr⟩ => by
    refine ⟨solid_cons.mpr ⟨hc, hs⟩, ?_, hr⟩
    rw [depthOf_cons]
    omega

theorem intercalate_consFirst (c : Char) :
    ∀ {ps : List (List Char)}, ps ≠ [] →
      ['.'].intercalate (consFirst c ps) = c :: ['.'].intercalate ps
  | [], h => absurd rfl h
  | [piece], _ => by simp [consFirst]
  | piece :: next :: rest, _ => by
    simp only [consFirst, List.intercalate_cons_cons, List.cons_append]

/-- The pieces of a text are well cut. -/
theorem wellCut_pieces : ∀ (depth : Int) (cs : List Char), WellCut depth (pieces depth cs)
  | depth, [] => solid_nil depth
  | depth, c :: cs => by
    unfold pieces
    split_ifs with hc
    · have ih := wellCut_pieces 0 cs
      refine (wellCut_cons ih.ne_nil).mpr ⟨solid_nil depth, ?_, ih⟩
      rw [hc.2, depthOf_nil]
      rfl
    · exact wellCut_consFirst hc (wellCut_pieces _ cs)

/-- Nothing is lost in cutting. -/
theorem intercalate_pieces : ∀ (depth : Int) (cs : List Char),
    ['.'].intercalate (pieces depth cs) = cs
  | _, [] => rfl
  | depth, c :: cs => by
    unfold pieces
    split_ifs with hc
    · have hne := (wellCut_pieces 0 cs).ne_nil
      obtain ⟨next, rest, hps⟩ := List.exists_cons_of_ne_nil hne
      have ih := intercalate_pieces 0 cs
      rw [hps] at ih ⊢
      rw [List.intercalate_cons_cons, ih, hc.1]
      rfl
    · rw [intercalate_consFirst c (wellCut_pieces _ cs).ne_nil, intercalate_pieces]

/-- Behind a text that leads back to depth zero, a dot is a cut. -/
theorem pieces_append_dot : ∀ {depth : Int} {front : List Char} (back : List Char),
    depth + depthOf front = 0 →
      pieces depth (front ++ '.' :: back) = pieces depth front ++ pieces 0 back
  | depth, [], back, h => by
    have hd : depth = 0 := by rw [depthOf_nil] at h; omega
    subst hd
    simp [pieces]
  | depth, c :: front, back, h => by
    rw [depthOf_cons] at h
    rw [List.cons_append, pieces, pieces]
    split_ifs with hc
    · obtain ⟨rfl, rfl⟩ := hc
      rw [pieces_append_dot back (by rw [show depthChange '.' = 0 from rfl] at h; omega),
        List.cons_append]
    · rw [pieces_append_dot back (by omega)]
      obtain ⟨piece, rest, hps⟩ :=
        List.exists_cons_of_ne_nil (wellCut_pieces (depth + depthChange c) front).ne_nil
      rw [hps]
      rfl

/-- A solid text is one piece. -/
theorem pieces_of_solid : ∀ {depth : Int} {cs : List Char}, Solid depth cs → pieces depth cs = [cs]
  | _, [], _ => rfl
  | depth, c :: cs, h => by
    obtain ⟨hc, hcs⟩ := solid_cons.mp h
    unfold pieces
    rw [if_neg hc, pieces_of_solid hcs]
    rfl

theorem pieces_intercalate : ∀ {depth : Int} {ps : List (List Char)}, WellCut depth ps →
    pieces depth (['.'].intercalate ps) = ps
  | _, [piece], h => by
    rw [List.intercalate_singleton]
    exact pieces_of_solid h
  | _, piece :: next :: rest, ⟨hs, hd, hr⟩ => by
    rw [List.intercalate_cons_cons, List.append_assoc, List.singleton_append,
      pieces_append_dot _ hd, pieces_of_solid hs, pieces_intercalate hr]
    rfl

/-- **The cut is determined.** The pieces of a text are the one well-cut list that the text is put
together from. -/
theorem pieces_eq_iff {depth : Int} {cs : List Char} {ps : List (List Char)} :
    pieces depth cs = ps ↔ WellCut depth ps ∧ ['.'].intercalate ps = cs := by
  constructor
  · rintro rfl
    exact ⟨wellCut_pieces depth cs, intercalate_pieces depth cs⟩
  · rintro ⟨hw, rfl⟩
    exact pieces_intercalate hw

/-! ## Token texts -/

/-- Texts that can be the token texts of a path. -/
def TokenList (ts : List String) : Prop :=
  WellCut 0 (ts.map String.toList)

theorem tokenList_singleton {text : String} : TokenList [text] ↔ Solid 0 text.toList := Iff.rfl

theorem tokenList_cons {text : String} {ts : List String} (h : ts ≠ []) :
    TokenList (text :: ts) ↔ Solid 0 text.toList ∧ Balanced text ∧ TokenList ts := by
  unfold TokenList
  rw [List.map_cons, wellCut_cons (by simpa using h), Int.zero_add, balanced_iff_depthOf]

/-- **The lists that can be token texts.** Each text is solid, and each but the last is balanced. -/
theorem tokenList_iff : ∀ {ts : List String},
    TokenList ts ↔
      ts ≠ [] ∧ (∀ text ∈ ts, Solid 0 text.toList) ∧ ∀ text ∈ ts.dropLast, Balanced text
  | [] => by
    constructor
    · intro h
      exact absurd h id
    · rintro ⟨hne, -⟩
      exact absurd rfl hne
  | [text] => by
    rw [tokenList_singleton]
    simp
  | text :: next :: rest => by
    have hne := List.cons_ne_nil next rest
    rw [tokenList_cons hne, tokenList_iff, List.dropLast_cons_of_ne_nil hne]
    simp only [ne_eq, reduceCtorEq, not_false_eq_true, true_and, List.forall_mem_cons]
    tauto

theorem TokenList.solid {ts : List String} (h : TokenList ts) :
    ∀ text ∈ ts, Solid 0 text.toList :=
  (tokenList_iff.mp h).2.1

theorem tokenList_append {front back : List String} (hf : front ≠ []) (hb : back ≠ []) :
    TokenList (front ++ back) ↔
      TokenList front ∧ (∀ text ∈ front, Balanced text) ∧ TokenList back := by
  have hne : front ++ back ≠ [] := List.append_ne_nil_of_left_ne_nil hf back
  have hinit : (∀ text ∈ front, Balanced text) → ∀ text ∈ front.dropLast, Balanced text :=
    fun h text hmem => h text (List.dropLast_subset front hmem)
  rw [tokenList_iff, tokenList_iff, tokenList_iff, List.dropLast_append_of_ne_nil hb,
    List.forall_mem_append, List.forall_mem_append]
  tauto

theorem toList_join (ts : List String) :
    (join ts).toList = ['.'].intercalate (ts.map String.toList) := by
  unfold join
  rw [String.toList_intercalate]
  rfl

theorem join_singleton (text : String) : join [text] = text :=
  String.intercalate_singleton

theorem join_append {front back : List String} (hf : front ≠ []) (hb : back ≠ []) :
    join (front ++ back) = join front ++ "." ++ join back :=
  String.intercalate_append_of_ne_nil hf hb

theorem join_cons {text : String} {ts : List String} (h : ts ≠ []) :
    join (text :: ts) = text ++ "." ++ join ts := by
  rw [← List.singleton_append, join_append (List.cons_ne_nil _ _) h, join_singleton]

theorem map_toList_texts {path : String} (h : path ≠ "") :
    (texts path).map String.toList = pieces 0 path.toList := by
  unfold texts
  rw [if_neg h, List.map_map]
  simp

theorem texts_empty : texts "" = [] := rfl

theorem texts_eq_nil_iff {path : String} : texts path = [] ↔ path = "" := by
  constructor
  · intro h
    by_contra hne
    have hp := map_toList_texts hne
    rw [h, List.map_nil] at hp
    exact (wellCut_pieces 0 path.toList).ne_nil hp.symm
  · rintro rfl
    rfl

/-- The token texts of a path that is not empty are a token list. -/
theorem tokenList_texts {path : String} (h : path ≠ "") : TokenList (texts path) := by
  unfold TokenList
  rw [map_toList_texts h]
  exact (pieces_eq_iff.mp rfl).1

/-- **Joining undoes cutting.** -/
theorem join_texts (path : String) : join (texts path) = path := by
  by_cases h : path = ""
  · subst h
    rfl
  · rw [← String.toList_inj, toList_join, map_toList_texts h]
    exact (pieces_eq_iff.mp rfl).2

theorem texts_inj {a b : String} : texts a = texts b ↔ a = b := by
  constructor
  · intro h
    rw [← join_texts a, h, join_texts]
  · exact congrArg texts

/-- A path has a last token unless it is empty. -/
theorem exists_texts_eq_concat {path : String} (h : path ≠ "") :
    ∃ front last, texts path = front ++ [last] := by
  rcases List.eq_nil_or_concat' (texts path) with hnil | hconcat
  · exact absurd (texts_eq_nil_iff.mp hnil) h
  · exact hconcat

theorem ne_empty_of_texts {path last : String} {front : List String}
    (h : texts path = front ++ [last]) : path ≠ "" := by
  rintro rfl
  rw [texts_empty] at h
  simp at h

/-- **Cutting undoes joining** for a token list, unless nothing is left to cut. -/
theorem texts_join {ts : List String} (h : TokenList ts) (hne : join ts ≠ "") :
    texts (join ts) = ts := by
  have hcut : pieces 0 (join ts).toList = ts.map String.toList :=
    pieces_eq_iff.mpr ⟨h, (toList_join ts).symm⟩
  rw [← map_toList_texts hne] at hcut
  exact List.map_injective_iff.mpr (fun _ _ => String.toList_inj.mp) hcut

theorem join_eq_empty_iff : ∀ {ts : List String}, join ts = "" ↔ ts = [] ∨ ts = [""]
  | [] => by simp [join]
  | [text] => by simp [join_singleton]
  | text :: next :: rest => by
    rw [join_cons (List.cons_ne_nil next rest)]
    simp [String.append_eq_empty_iff]

/-- The path does not start with a dot. -/
def Undotted (path : String) : Prop :=
  path.toList.head? ≠ some '.'

instance (path : String) : Decidable (Undotted path) :=
  inferInstanceAs (Decidable (_ ≠ _))

/-- **Cutting undoes joining for the tokens in front**, when the path does not start with a dot. -/
theorem texts_join_front {path : String} (hdot : Undotted path) {front back : List String}
    (h : texts path = front ++ back) : texts (join front) = front := by
  by_cases hfront : front = []
  · subst hfront
    rfl
  have hpath : path ≠ "" := fun hempty => by
    rw [texts_eq_nil_iff.mpr hempty] at h
    exact hfront (List.append_eq_nil_iff.mp h.symm).1
  have htokens := tokenList_texts hpath
  have hjoin := join_texts path
  rw [h] at htokens hjoin
  by_cases hback : back = []
  · subst hback
    rw [List.append_nil] at htokens hjoin
    exact texts_join htokens (by rwa [hjoin])
  refine texts_join ((tokenList_append hfront hback).mp htokens).1 fun hempty => hdot ?_
  rcases join_eq_empty_iff.mp hempty with hnil | rfl
  · exact absurd hnil hfront
  · rw [List.singleton_append, join_cons hback] at hjoin
    rw [← hjoin, String.toList_append, String.toList_append]
    rfl

/-- A solid text is one token. -/
theorem texts_of_solid {text : String} (hne : text ≠ "") (h : Solid 0 text.toList) :
    texts text = [text] := by
  have hjoin := texts_join (tokenList_singleton.mpr h) (by rwa [join_singleton])
  rwa [join_singleton] at hjoin

theorem append_empty_left (back : String) : append "" back = back := rfl

theorem append_empty_right (front : String) : append front "" = front := by
  unfold append
  rw [if_pos rfl]
  split_ifs with h
  · exact h.symm
  · rfl

theorem append_of_ne {front back : String} (hfront : front ≠ "") (hback : back ≠ "") :
    append front back = front ++ "." ++ back := by
  rw [append, if_neg hfront, if_neg hback]

/-- A path behind another is determined by what the two make together. -/
theorem append_right_injective (front : String) : Function.Injective (append front) := by
  intro a b h
  have hlength : ∀ back : String, (append front back).length =
      if front = "" then back.length
      else if back = "" then front.length else front.length + 1 + back.length := by
    intro back
    unfold append
    split_ifs
    · rfl
    · rfl
    · rw [String.length_append, String.length_append]
      rfl
  have hlengths := congrArg String.length h
  rw [hlength, hlength] at hlengths
  unfold append at h
  split_ifs at h hlengths with hfront ha hb hb
  · exact h
  · rw [ha, hb]
  · omega
  · omega
  · exact (String.append_right_inj _).mp h

theorem append_join {text : String} {ts : List String} (htext : text ≠ "") (hts : join ts ≠ "") :
    append text (join ts) = join (text :: ts) := by
  have hne : ts ≠ [] := by
    rintro rfl
    exact hts rfl
  rw [append_of_ne htext hts, join_cons hne]

/-- **A balanced path in front leaves the tokens of the path behind it alone.** -/
theorem texts_append {front : String} (h : Balanced front) (back : String) :
    texts (append front back) = texts front ++ texts back := by
  unfold append
  split_ifs with hf hb
  · rw [hf, texts_empty, List.nil_append]
  · rw [hb, texts_empty, List.append_nil]
  · have hne : front ++ "." ++ back ≠ "" := by simp [String.append_eq_empty_iff]
    apply List.map_injective_iff.mpr fun _ _ => String.toList_inj.mp
    rw [map_toList_texts hne, List.map_append, map_toList_texts hf, map_toList_texts hb,
      String.toList_append, String.toList_append, List.append_assoc]
    exact pieces_append_dot back.toList (by rw [balanced_iff_depthOf.mp h, Int.zero_add])

/-! ## Ranges -/

theorem map_text_layOut : ∀ (start : Nat) (ts : List String),
    (layOut start ts).map Token.text = ts
  | _, [] => rfl
  | start, text :: rest => by rw [layOut, List.map_cons, map_text_layOut]

theorem map_text_tokens (path : String) : (tokens path).map Token.text = texts path :=
  map_text_layOut 0 (texts path)

/-- The range of a token is as long as its text. -/
theorem stop_of_mem_layOut : ∀ {start : Nat} {ts : List String} {token : Token},
    token ∈ layOut start ts → token.range.stop = token.range.start + token.text.length
  | _, _ :: _, _, h => by
    rcases List.mem_cons.mp h with rfl | h
    · rfl
    · exact stop_of_mem_layOut h

end Dataflow.AccessPath
