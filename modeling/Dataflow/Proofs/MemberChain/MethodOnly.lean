import Dataflow.Proofs.MemberChain.Chain
import Dataflow.Proofs.MemberChain.Rows

/-!
# Paths that name a method only

Summary and neutral rows speak of a whole method, so their path column is to be a chain without
anything behind it. What is looked at is the text behind the chain, and an empty token at the end of
a path has none.

* `OnlyLinks path`: every token is a link.
* `LinksAndDot path`: a path of links with a dot at its end.

Results:
* `parse_suffix_eq_empty_iff`: the paths with no text behind the chain.
* `decodeChecked_methodOnly`: summary and neutral rows are read iff their path has no text behind
  the chain, and otherwise the path is reported with this text.
* `trailing_dot_accepted`: a dot at the end of a path is not reported.
-/

namespace Dataflow.MemberChain

open AccessPath

/-! ## Text behind the chain -/

/-- Every token of the path is a link. -/
def OnlyLinks (path : String) : Prop :=
  ∀ token ∈ texts path, IsLink token

instance : DecidablePred OnlyLinks :=
  fun path => inferInstanceAs (Decidable (∀ token ∈ texts path, _))

/-- The last token of the path is empty, and all others are links. -/
def LinksAndDot (path : String) : Prop :=
  (texts path).getLast? = some "" ∧ ∀ token ∈ (texts path).dropLast, IsLink token

instance : DecidablePred LinksAndDot :=
  fun path => inferInstanceAs (Decidable (_ ∧ ∀ token ∈ (texts path).dropLast, _))

theorem not_isLink_empty : ¬ IsLink "" := by decide

/-- Nothing but an empty token stands behind the chain. -/
theorem dropWhile_eq_empty_iff {tokens : List String} :
    tokens.dropWhile (IsLink ·) = [""] ↔
      tokens.getLast? = some "" ∧ ∀ token ∈ tokens.dropLast, IsLink token := by
  constructor
  · intro h
    have hsplit : tokens = tokens.takeWhile (IsLink ·) ++ [""] := by
      rw [← h, List.takeWhile_append_dropWhile]
    refine ⟨List.getLast?_eq_some_iff.mpr ⟨_, hsplit⟩, fun token htoken => ?_⟩
    rw [hsplit, List.dropLast_concat] at htoken
    exact isLink_of_mem_chain htoken
  · rintro ⟨hlast, hlinks⟩
    obtain ⟨links, rfl⟩ := List.getLast?_eq_some_iff.mp hlast
    rw [List.dropLast_concat] at hlinks
    rw [List.dropWhile_append_of_pos fun token htoken => decide_eq_true (hlinks token htoken)]
    exact List.dropWhile_cons_of_neg (by simpa using not_isLink_empty)

/-- **The paths with no text behind the chain.** -/
theorem parse_suffix_eq_empty_iff {column path : String} :
    (parse column path).suffix = "" ↔ OnlyLinks path ∨ LinksAndDot path := by
  rw [parse_suffix, ofTokens_eq, join_eq_empty_iff, dropWhile_eq_empty_iff]
  refine or_congr ?_ Iff.rfl
  rw [List.dropWhile_eq_nil_iff]
  simp only [decide_eq_true_eq]
  rfl

/-! ## Rows -/

theorem map_parseMethod_eq_error_iff {column path : String} {f : Parsed → ModeledMethod}
    {error : RowError} :
    (parseMethod column path).map f = .error error ↔
      (parse column path).suffix ≠ "" ∧
        error = .methodPathExpected path (parse column path).suffix := by
  unfold parseMethod
  simp only
  split_ifs with h
  · simp [Except.map, h]
  · simp [Except.map, h, eq_comm]

/-- Summary and neutral rows are read through a path that may name a method only. -/
theorem decode_eq_map {variant : Variant} (hvariant : variant = .summary ∨ variant = .neutral)
    (row : Row) :
    ∃ f : Parsed → ModeledMethod, Ecosystem.python.decode variant row =
      (parseMethod (row.textAt 0) (row.textAt 1)).map f := by
  rcases hvariant with rfl | rfl
  · exact ⟨_, rfl⟩
  · exact ⟨_, rfl⟩

theorem decodeChecked_eq_map {variant : Variant}
    (hvariant : variant = .summary ∨ variant = .neutral) {row : Row}
    (hfits : Ecosystem.python.Fits variant row) :
    ∃ f : Parsed → ModeledMethod, Ecosystem.python.decodeChecked variant row =
      (parseMethod (row.textAt 0) (row.textAt 1)).map f := by
  rw [Ecosystem.decodeChecked_of_fits hfits]
  exact decode_eq_map hvariant row

/-- **Rows of a whole method.** A summary or neutral row is read iff its path is made of links, but
for a dot at the end. Any other path is reported, with what stands behind its chain. -/
theorem decodeChecked_methodOnly {variant : Variant}
    (hvariant : variant = .summary ∨ variant = .neutral) {row : Row}
    (hfits : Ecosystem.python.Fits variant row) :
    ((∃ modeled, Ecosystem.python.decodeChecked variant row = .ok modeled) ↔
        OnlyLinks (row.textAt 1) ∨ LinksAndDot (row.textAt 1)) ∧
      ∀ error, Ecosystem.python.decodeChecked variant row = .error error ↔
        ¬ (OnlyLinks (row.textAt 1) ∨ LinksAndDot (row.textAt 1)) ∧
          error = .methodPathExpected (row.textAt 1)
            (join ((texts (row.textAt 1)).dropWhile (IsLink ·))) := by
  obtain ⟨f, hdecode⟩ := decodeChecked_eq_map hvariant hfits
  rw [hdecode, ← @parse_suffix_eq_empty_iff (row.textAt 0)]
  constructor
  · simp only [map_parseMethod_eq_ok_iff, exists_eq_left']
  · intro error
    rw [map_parseMethod_eq_error_iff, parse_suffix, ofTokens_eq]

/-- A method that is reached through an instance. -/
theorem decodeChecked_cursor :
    let row : Row := [.text "django", .text "Member[db].Instance.Member[cursor]",
      .text "Argument[0]", .text "ReturnValue", .text "taint"]
    Ecosystem.python.Fits .summary row ∧
      ∃ modeled, Ecosystem.python.decodeChecked .summary row = .ok modeled := by
  intro row
  have hfits : Ecosystem.python.Fits .summary row := fits_iff.mpr
    ⟨_, _, .summary "Argument[0]" "ReturnValue" "taint" .manual, rfl, rfl⟩
  refine ⟨hfits, (decodeChecked_methodOnly (Or.inl rfl) hfits).1.mpr (Or.inl ?_)⟩
  decide

/-- **A dot at the end of a path is not reported**, though an empty token stands behind it. Two dots
are. -/
theorem trailing_dot_accepted :
    let row (path : String) : Row := [.text "requests.Session", .text path, .text "summary"]
    Ecosystem.python.Fits .neutral (row "Member[get].") ∧ ¬ OnlyLinks "Member[get]." ∧
      Ecosystem.python.decodeChecked .neutral (row "Member[get].") =
        .ok ⟨⟨"requests", "Session", "get", "", .method, "Session#get"⟩,
          .neutral "summary" .manual⟩ ∧
      Ecosystem.python.decodeChecked .neutral (row "Member[get]..") =
        .error (.methodPathExpected "Member[get].." ".") := by
  intro row
  refine ⟨fits_iff.mpr ⟨_, _, .neutral "summary" .manual, rfl, rfl⟩, by decide, ?_, ?_⟩
  · decide
  · decide

end Dataflow.MemberChain
