import Dataflow.Proofs.AccessPath.Cut
import Mathlib.Data.List.Chain

/-!
# The tokens of a path tile it

Positions count the characters of a text from zero.

* `IsCut cs i`: a dot stands at position `i`, and the depth of what stands before it is zero.
* `Tiles cs start ts`: the tokens `ts` cover the text from `start` to its end. They meet at the cuts
  and nowhere else, and each is the slice of its range.

Results:
* `tiles_layOut`: well-cut texts, laid out behind a text, tile what they are put together to.
* `Tiles.unique`: a text has one tiling from a position on.
* `tokens_tile`: the tokens of a path are the one tiling of it, the empty path has none.
-/

namespace Dataflow.AccessPath

/-! ## Cuts -/

/-- A dot at a position where the bracket depth is zero. -/
def IsCut (cs : List Char) (i : Nat) : Prop :=
  cs[i]? = some '.' ∧ depthOf (cs.take i) = 0

instance (cs : List Char) (i : Nat) : Decidable (IsCut cs i) :=
  inferInstanceAs (Decidable (_ ∧ _))

theorem IsCut.lt_length {cs : List Char} {i : Nat} (h : IsCut cs i) : i < cs.length :=
  (List.getElem?_eq_some_iff.mp h.1).1

/-- A cut behind `front`, counted from its end. -/
theorem isCut_append {front cs : List Char} {i : Nat} :
    IsCut (front ++ cs) (front.length + i) ↔
      cs[i]? = some '.' ∧ depthOf front + depthOf (cs.take i) = 0 := by
  unfold IsCut
  rw [List.getElem?_append_right (Nat.le_add_right _ _), Nat.add_sub_cancel_left,
    List.take_length_add_append, depthOf_append]

/-- A solid text has no cut. -/
theorem Solid.not_isCut {front piece back : List Char} (h : Solid (depthOf front) piece) {i : Nat}
    (hi : i < piece.length) : ¬ IsCut (front ++ (piece ++ back)) (front.length + i) := by
  rw [isCut_append]
  rintro ⟨hdot, hdepth⟩
  rw [List.getElem?_append_left hi] at hdot
  rw [List.take_append_of_le_length (Nat.le_of_lt hi)] at hdepth
  refine h (piece.take i) (piece.drop (i + 1)) ?_ hdepth
  obtain ⟨hlt, hget⟩ := List.getElem?_eq_some_iff.mp hdot
  rw [← hget, ← List.drop_eq_getElem_cons hlt, List.take_append_drop]

/-! ## Tilings -/

/-- Tokens that cover a text from a position to its end. -/
structure Tiles (cs : List Char) (start : Nat) (ts : List Token) : Prop where
  /-- The first token starts at the position. -/
  first : ts.head?.map (·.range.start) = some start
  /-- The last token ends at the end. -/
  last : ts.getLast?.map (·.range.stop) = some cs.length
  /-- Each token starts one after the end of the one before. -/
  next : ts.IsChain fun token other => other.range.start = token.range.stop + 1
  /-- The tokens before the last end at the cuts. -/
  boundary : ∀ i, i ∈ ts.dropLast.map (·.range.stop) ↔ start ≤ i ∧ IsCut cs i
  /-- Each text is the slice of its range. -/
  slice : ∀ token ∈ ts, token.range.start ≤ token.range.stop ∧
    token.text.toList = cs.extract token.range.start token.range.stop

theorem extract_middle (front piece back : List Char) :
    (front ++ (piece ++ back)).extract front.length (front.length + piece.length) = piece := by
  simp [List.extract_eq_take_drop]

/-- A text without cuts is one token. -/
theorem tiles_piece {front piece : List Char} (h : Solid (depthOf front) piece) :
    Tiles (front ++ piece) front.length
      [⟨String.ofList piece, front.length, front.length + piece.length⟩] where
  first := rfl
  last := by simp
  next := List.isChain_singleton _
  boundary := by
    intro i
    constructor
    · intro hi
      exact absurd hi List.not_mem_nil
    · rintro ⟨hle, hcut⟩
      have hlt := hcut.lt_length
      rw [List.length_append] at hlt
      obtain ⟨k, rfl⟩ := Nat.exists_eq_add_of_le hle
      rw [← List.append_nil piece] at hcut
      exact absurd hcut (h.not_isCut (by omega))
  slice := by
    intro token htoken
    obtain rfl := List.mem_singleton.mp htoken
    have hslice := extract_middle front piece []
    rw [List.append_nil] at hslice
    exact ⟨Nat.le_add_right _ _, by rw [hslice, String.toList_ofList]⟩

/-- A text up to a cut is the first token in front of a tiling of the rest. -/
theorem Tiles.cons {front piece back : List Char} {ts : List Token}
    (hsolid : Solid (depthOf front) piece) (hdepth : depthOf front + depthOf piece = 0)
    (h : Tiles (front ++ (piece ++ '.' :: back)) (front.length + piece.length + 1) ts) :
    Tiles (front ++ (piece ++ '.' :: back)) front.length
      (⟨String.ofList piece, front.length, front.length + piece.length⟩ :: ts) := by
  obtain ⟨token, ts, rfl⟩ : ∃ token rest, ts = token :: rest := by
    cases ts with
    | nil => exact absurd h.first (by simp)
    | cons token rest => exact ⟨token, rest, rfl⟩
  refine ⟨rfl, ?_, ?_, fun i => ?_, ?_⟩
  · rw [List.getLast?_cons_cons]
    exact h.last
  · exact List.isChain_cons_cons.mpr ⟨Option.some.inj h.first, h.next⟩
  · rw [List.dropLast_cons_of_ne_nil (List.cons_ne_nil _ _), List.map_cons, List.mem_cons,
      h.boundary]
    constructor
    · rintro (rfl | ⟨hle, hcut⟩)
      · refine ⟨Nat.le_add_right _ _, isCut_append.mpr ⟨?_, ?_⟩⟩
        · rw [List.getElem?_append_right (Nat.le_refl _), Nat.sub_self]
          rfl
        · rw [List.take_left]
          exact hdepth
      · exact ⟨by omega, hcut⟩
    · rintro ⟨hle, hcut⟩
      obtain ⟨k, rfl⟩ := Nat.exists_eq_add_of_le hle
      rcases Nat.lt_trichotomy k piece.length with hlt | heq | hgt
      · exact absurd hcut (hsolid.not_isCut hlt)
      · exact Or.inl (congrArg _ heq)
      · exact Or.inr ⟨by omega, hcut⟩
  · intro other hother
    rcases List.mem_cons.mp hother with rfl | hother
    · exact ⟨Nat.le_add_right _ _, by rw [extract_middle, String.toList_ofList]⟩
    · exact h.slice other hother

/-- **Laying out tiles.** Well-cut texts, laid out behind a text, tile what they make together. -/
theorem tiles_layOut : ∀ (front : List Char) {ps : List (List Char)}, WellCut (depthOf front) ps →
    Tiles (front ++ ['.'].intercalate ps) front.length (layOut front.length (ps.map String.ofList))
  | front, [piece], h => by
    rw [List.intercalate_singleton, List.map_singleton, layOut, String.length_ofList]
    exact tiles_piece h
  | front, piece :: next :: rest, ⟨hsolid, hdepth, hrest⟩ => by
    have hfront : depthOf (front ++ piece ++ ['.']) = 0 := by
      rw [depthOf_append, depthOf_append, hdepth]
      rfl
    have ih := tiles_layOut (front ++ piece ++ ['.']) (hfront ▸ hrest)
    rw [List.intercalate_cons_cons, List.map_cons, layOut, String.length_ofList]
    simp only [List.append_assoc, List.length_append, List.length_singleton, ← Nat.add_assoc,
      List.singleton_append] at ih ⊢
    exact Tiles.cons hsolid hdepth ih

/-! ## One tiling -/

section

variable {cs : List Char} {start : Nat} {token : Token} {ts : List Token}

/-- A token of a tiling is given by its range. -/
theorem Tiles.token_eq (h : Tiles cs start ts) (htoken : token ∈ ts) :
    token = ⟨String.ofList (cs.extract token.range.start token.range.stop), token.range⟩ := by
  rw [← (h.slice token htoken).2, String.ofList_toList]

/-- The tokens behind the first one end behind it. -/
theorem Tiles.stop_lt (h : Tiles cs start (token :: ts)) {other : Token} (hother : other ∈ ts) :
    token.range.stop < other.range.stop := by
  have hchain : ((token :: ts).map (·.range.stop)).IsChain (· < ·) := by
    refine (List.isChain_map _).mpr (h.next.imp_of_mem_imp fun a b _ hb hab => ?_)
    have hle := (h.slice b hb).1
    omega
  exact hchain.rel_cons (List.mem_map_of_mem hother)

/-- The first token of a tiling ends at or before the first cut. -/
theorem Tiles.stop_le (h : Tiles cs start (token :: ts)) {i : Nat} (hle : start ≤ i)
    (hcut : IsCut cs i) : token.range.stop ≤ i := by
  obtain ⟨other, hother, rfl⟩ := List.mem_map.mp ((h.boundary i).mpr ⟨hle, hcut⟩)
  rcases List.mem_cons.mp (List.dropLast_subset _ hother) with rfl | hlater
  · exact Nat.le_refl _
  · exact Nat.le_of_lt (h.stop_lt hlater)

/-- A token that others follow ends at a cut. -/
theorem Tiles.isCut_stop (h : Tiles cs start (token :: ts)) (hts : ts ≠ []) :
    start ≤ token.range.stop ∧ IsCut cs token.range.stop := by
  refine (h.boundary _).mp (List.mem_map_of_mem ?_)
  rw [List.dropLast_cons_of_ne_nil hts]
  exact List.mem_cons_self

/-- Behind the first token, the others tile the rest. -/
theorem Tiles.tail {next : Token} (h : Tiles cs start (token :: next :: ts)) :
    Tiles cs (token.range.stop + 1) (next :: ts) := by
  obtain ⟨hnext, hchain⟩ := List.isChain_cons_cons.mp h.next
  refine ⟨congrArg some hnext, ?_, hchain, fun i => ?_,
    fun other hother => h.slice other (List.mem_cons_of_mem token hother)⟩
  · rw [← List.getLast?_cons_cons]
    exact h.last
  · have hboundary := h.boundary i
    rw [List.dropLast_cons_of_ne_nil (List.cons_ne_nil _ _), List.map_cons, List.mem_cons]
      at hboundary
    constructor
    · intro hi
      obtain ⟨other, hother, rfl⟩ := List.mem_map.mp hi
      exact ⟨h.stop_lt (List.dropLast_subset _ hother), (hboundary.mp (Or.inr hi)).2⟩
    · rintro ⟨hlt, hcut⟩
      have hstart := (h.isCut_stop (List.cons_ne_nil _ _)).1
      exact (hboundary.mpr ⟨by omega, hcut⟩).resolve_left (by omega)

/-- **A text has one tiling** from a position on. -/
theorem Tiles.unique : ∀ {ts ts' : List Token} {start : Nat}, Tiles cs start ts →
    Tiles cs start ts' → ts = ts'
  | [], _, _, h, _ => absurd h.first (by simp)
  | _, [], _, _, h' => absurd h'.first (by simp)
  | token :: ts, token' :: ts', start, h, h' => by
    have hstart : token.range.start = token'.range.start :=
      (Option.some.inj h.first).trans (Option.some.inj h'.first).symm
    have hstop : token.range.stop = token'.range.stop ∧ ts = ts' := by
      match ts, ts' with
      | [], [] => exact ⟨Option.some.inj (h.last.trans h'.last.symm), rfl⟩
      | [], next' :: ts' =>
        have hcut := (h.boundary _).mpr (h'.isCut_stop (List.cons_ne_nil next' ts'))
        exact absurd hcut List.not_mem_nil
      | next :: ts, [] =>
        have hcut := (h'.boundary _).mpr (h.isCut_stop (List.cons_ne_nil next ts))
        exact absurd hcut List.not_mem_nil
      | next :: ts, next' :: ts' =>
        obtain ⟨hle, hcut⟩ := h.isCut_stop (List.cons_ne_nil next ts)
        obtain ⟨hle', hcut'⟩ := h'.isCut_stop (List.cons_ne_nil next' ts')
        have hstop := Nat.le_antisymm (h.stop_le hle' hcut') (h'.stop_le hle hcut)
        refine ⟨hstop, Tiles.unique h.tail ?_⟩
        rw [hstop]
        exact h'.tail
    have hrange : token.range = token'.range := congrArg₂ Range.mk hstart hstop.1
    rw [h.token_eq List.mem_cons_self, h'.token_eq List.mem_cons_self, hrange, hstop.2]

end

/-- **Tokenizing is exact.** The empty path has no tokens. The tokens of any other path are the one
tiling of it, and put together they are the path. -/
theorem tokens_tile (path : String) :
    (tokens path = [] ↔ path = "") ∧
      (path ≠ "" → Tiles path.toList 0 (tokens path) ∧
        ∀ ts, Tiles path.toList 0 ts → ts = tokens path) ∧
      join ((tokens path).map Token.text) = path := by
  refine ⟨?_, fun hpath => ?_, ?_⟩
  · rw [← List.map_eq_nil_iff, map_text_tokens, texts_eq_nil_iff]
  · have htiles := tiles_layOut [] (wellCut_pieces 0 path.toList)
    have htexts : (pieces 0 path.toList).map String.ofList = texts path := by
      rw [texts, if_neg hpath]
    rw [intercalate_pieces, htexts] at htiles
    exact ⟨htiles, fun ts hts => hts.unique htiles⟩
  · rw [map_text_tokens, join_texts]

example : tokens "a].[b.c].d" = [⟨"a].[b", 0, 5⟩, ⟨"c].d", 6, 10⟩] := by decide

end Dataflow.AccessPath
