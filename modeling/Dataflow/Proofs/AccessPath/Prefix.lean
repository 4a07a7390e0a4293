import Dataflow.Proofs.AccessPath.Joining
import Mathlib.Data.List.Infix

/-!
# Where a path is cut when more is written

A path is cut from its start, so what is written behind it leaves its tokens alone, but for the last
one, which may grow.

Results:
* `exists_pieces_append`: the pieces of two texts, one behind the other.
* `exists_texts_of_prefix`: the tokens of a path and those of a path it is a prefix of.
* `infix_join`: a token stands in its path.
* `exists_layOut_append`: where the ranges of tokens start that stand behind others.
* `finished_tokens_stay`: all tokens of a path but the last stay when more is written, with their
  ranges and their diagnostics.
-/

namespace Dataflow.AccessPath

/-! ## Token texts -/

/-- **The last piece of a text and the first of what stands behind it are one**, and all others are
left alone. -/
theorem exists_pieces_append (back : List Char) : ∀ (depth : Int) (front : List Char),
    ∃ done pending more rest, pieces depth front = done ++ [pending] ∧
      pieces (depth + depthOf front) back = more :: rest ∧
        pieces depth (front ++ back) = done ++ (pending ++ more) :: rest
  | depth, [] => by
    obtain ⟨more, rest, hback⟩ := List.exists_cons_of_ne_nil (wellCut_pieces depth back).ne_nil
    exact ⟨[], [], more, rest, rfl, by rw [depthOf_nil, Int.add_zero, hback], hback⟩
  | depth, c :: front => by
    rw [List.cons_append, pieces, pieces, depthOf_cons]
    split_ifs with hc
    · obtain ⟨rfl, rfl⟩ := hc
      obtain ⟨done, pending, more, rest, hfront, hback, hall⟩ := exists_pieces_append back 0 front
      refine ⟨[] :: done, pending, more, rest, ?_, ?_, ?_⟩
      · rw [hfront, List.cons_append]
      · rw [show depthChange '.' = 0 from rfl, Int.zero_add (depthOf front), hback]
      · rw [hall, List.cons_append]
    · obtain ⟨done, pending, more, rest, hfront, hback, hall⟩ :=
        exists_pieces_append back (depth + depthChange c) front
      rw [hfront, hall, ← Int.add_assoc, hback]
      cases done with
      | nil => exact ⟨[], c :: pending, more, rest, rfl, rfl, rfl⟩
      | cons piece done => exact ⟨(c :: piece) :: done, pending, more, rest, rfl, rfl, rfl⟩

/-- **The tokens of a prefix.** All but the last are tokens of the whole path, and the last one is a
prefix of the token that stands there. -/
theorem exists_texts_of_prefix {typed path : String} (hbegins : typed.toList <+: path.toList)
    (hne : typed ≠ "") :
    ∃ front fragment token rest, texts typed = front ++ [fragment] ∧
      texts path = front ++ token :: rest ∧ fragment.toList <+: token.toList := by
  obtain ⟨back, hback⟩ := hbegins
  have hpath : path ≠ "" := by
    rintro rfl
    exact hne (String.toList_eq_nil_iff.mp (List.append_eq_nil_iff.mp hback).1)
  obtain ⟨done, pending, more, rest, htyped, -, hall⟩ := exists_pieces_append back 0 typed.toList
  rw [hback] at hall
  unfold texts
  rw [if_neg hne, if_neg hpath, htyped, hall]
  refine ⟨done.map String.ofList, String.ofList pending, String.ofList (pending ++ more),
    rest.map String.ofList, ?_, ?_, ?_⟩
  · rw [List.map_append, List.map_singleton]
  · rw [List.map_append, List.map_cons]
  · rw [String.toList_ofList, String.toList_ofList]
    exact List.prefix_append pending more

/-- A token stands in its path. -/
theorem infix_join : ∀ {ts : List String} {text : String}, text ∈ ts →
    text.toList <:+: (join ts).toList
  | [_], _, h => by
    rw [List.mem_singleton.mp h, join_singleton]
  | first :: next :: rest, text, h => by
    rw [join_cons (List.cons_ne_nil next rest), String.toList_append, String.toList_append]
    rcases List.mem_cons.mp h with rfl | h
    · rw [List.append_assoc]
      exact (List.prefix_append _ _).isInfix
    · exact (infix_join h).trans (List.suffix_append _ _).isInfix

theorem infix_of_mem_texts {path token : String} (h : token ∈ texts path) :
    token.toList <:+: path.toList := by
  have hinfix := infix_join h
  rwa [join_texts] at hinfix

/-! ## Ranges -/

/-- Texts that are laid out end where they do when they are put together. -/
theorem stop_le_of_mem_layOut : ∀ {start : Nat} {ts : List String} {token : Token},
    token ∈ layOut start ts → token.range.stop ≤ start + (join ts).length
  | start, [text], token, h => by
    rw [List.mem_singleton.mp h, join_singleton]
  | start, text :: next :: rest, token, h => by
    rw [length_join_cons (List.cons_ne_nil next rest)]
    rcases List.mem_cons.mp h with rfl | h
    · exact Nat.add_le_add_left (by omega) start
    · have hle := stop_le_of_mem_layOut h
      omega

/-- **Where texts go that are laid out behind others** does not depend on them. -/
theorem exists_layOut_append (start : Nat) (front : List String) :
    ∃ behind, (∀ token ∈ layOut start front, token.range.stop < behind) ∧
      ∀ back, layOut start (front ++ back) = layOut start front ++ layOut behind back := by
  by_cases hfront : front = []
  · subst hfront
    exact ⟨start, fun token h => absurd h List.not_mem_nil, fun _ => rfl⟩
  · refine ⟨start + (join front).length + 1, fun token h => ?_, fun back => ?_⟩
    · have hle := stop_le_of_mem_layOut h
      omega
    · exact layOut_append start back hfront

/-! ## Diagnostics -/

/-- A diagnostic is found by the range of its token. -/
theorem filter_diagnostics (p : Range → Prop) [DecidablePred p] (path : String) :
    (diagnostics path).filter (fun diagnostic => p diagnostic.range) =
      ((tokens path).filter fun token => p token.range).filterMap fun token =>
        token.problem?.map (Diagnostic.mk token.range) := by
  rw [diagnostics, List.filter_filterMap, List.filterMap_filter]
  refine List.filterMap_congr fun token _ => ?_
  cases token.problem? with
  | none => simp
  | some problem => by_cases h : p token.range <;> simp [h]

/-- The diagnostics of the tokens before the last one. -/
theorem diagnostics_before_last {path : String} {finished : List Token} {pending : Token}
    (htokens : tokens path = finished ++ [pending])
    (hother : ∀ token ∈ finished, token.range ≠ pending.range) :
    (diagnostics path).filter (fun diagnostic => diagnostic.range ≠ pending.range) =
      finished.filterMap fun token => token.problem?.map (Diagnostic.mk token.range) := by
  have hfinished : (tokens path).filter (fun token => token.range ≠ pending.range) = finished := by
    have hall := List.filter_eq_self (p := fun token => token.range ≠ pending.range).mpr
      fun token htoken => decide_eq_true (hother token htoken)
    rw [htokens, List.filter_append, hall]
    simp
  rw [filter_diagnostics (· ≠ pending.range), hfinished]

/-! ## What is finished -/

/-- **Finished tokens stay.** Whatever is written behind a path, its tokens but the last are the
first ones of the longer path, and so are their diagnostics. The token that follows them starts
where the last one started, and with its text. -/
theorem finished_tokens_stay {typed : String} (htyped : typed ≠ "") (more : String) :
    ∃ finished pending grown later,
      tokens typed = finished ++ [pending] ∧
        tokens (typed ++ more) = finished ++ grown :: later ∧
          grown.range.start = pending.range.start ∧
            pending.text.toList <+: grown.text.toList ∧
              (diagnostics typed).filter (fun diagnostic => diagnostic.range ≠ pending.range) <+:
                diagnostics (typed ++ more) := by
  have hbegins : typed.toList <+: (typed ++ more).toList := by
    rw [String.toList_append]
    exact List.prefix_append _ _
  obtain ⟨front, fragment, token, rest, hfragment, htoken, hgrows⟩ :=
    exists_texts_of_prefix hbegins htyped
  obtain ⟨behind, hstop, hlayOut⟩ := exists_layOut_append 0 front
  have hshort : tokens typed =
      layOut 0 front ++ [⟨fragment, behind, behind + fragment.length⟩] := by
    rw [tokens, hfragment, hlayOut]
    rfl
  have hlong : tokens (typed ++ more) =
      layOut 0 front ++ ⟨token, behind, behind + token.length⟩ ::
        layOut (behind + token.length + 1) rest := by
    rw [tokens, htoken, hlayOut]
    rfl
  have hother : ∀ other ∈ layOut 0 front,
      other.range ≠ ⟨behind, behind + fragment.length⟩ := by
    intro other hother heq
    have hlt := hstop other hother
    rw [heq] at hlt
    exact absurd hlt (Nat.not_lt.mpr (Nat.le_add_right _ _))
  refine ⟨layOut 0 front, _, _, _, hshort, hlong, rfl, hgrows, ?_⟩
  rw [diagnostics_before_last hshort hother, diagnostics, hlong, List.filterMap_append]
  exact List.prefix_append _ _

/-- What is typed closes a bracket, and goes on. The empty token before it is reported as it was. -/
theorem finished_tokens_stay_field :
    "Argument[0]..Field[a" ≠ "" ∧
      ∃ grown later,
        tokens ("Argument[0]..Field[a" ++ ".b].Element") =
            [⟨"Argument[0]", 0, 11⟩, ⟨"", 12, 12⟩] ++ grown :: later ∧
          grown.range.start = 13 ∧ "Field[a".toList <+: grown.text.toList ∧
            [⟨⟨12, 12⟩, .emptyToken⟩] <+:
              diagnostics ("Argument[0]..Field[a" ++ ".b].Element") := by
  have hne : "Argument[0]..Field[a" ≠ "" := by decide
  have hshort : tokens "Argument[0]..Field[a" =
      [⟨"Argument[0]", 0, 11⟩, ⟨"", 12, 12⟩] ++ [⟨"Field[a", 13, 20⟩] := by decide
  obtain ⟨finished, pending, grown, later, htokens, hlonger, hstart, hgrows, hkept⟩ :=
    finished_tokens_stay hne ".b].Element"
  rw [hshort] at htokens
  obtain ⟨rfl, hlast⟩ := List.append_inj' htokens rfl
  obtain rfl := List.singleton_inj.mp hlast
  exact ⟨hne, grown, later, hlonger, hstart, hgrows, hkept⟩

end Dataflow.AccessPath
