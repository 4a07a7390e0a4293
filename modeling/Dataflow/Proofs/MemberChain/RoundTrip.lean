import Dataflow.Proofs.MemberChain.Chain
import Dataflow.Proofs.MemberChain.Rows
import Dataflow.Proofs.MemberChain.TypeColumn

/-!
# Which models survive as a row with a chain of members

* `Canonical identity position`: an endpoint, with the position a model speaks of, that its two
  columns tell from all others.

Results:
* `decodeChecked_encode_eq_self_iff`: a modeled method that is written and read is the same iff its
  endpoint is canonical and its provenance is `manual`.
* `reread_of_decodeChecked`: what was read from a row can be written and read again, keeps its model
  and its method, and is the same iff its type shows what it is. `instance_lost` is a row where it
  does not: `Instance` is read but not written.
-/

namespace Dataflow.MemberChain

open AccessPath

/-! ## Endpoints -/

/-- An endpoint and a position that are read back from the two columns written for them. -/
structure Canonical (identity : Identity) (position : String) : Prop where
  /-- The package is one part of a type column. -/
  package : '.' ∉ identity.package.toList
  /-- A type stands in a package. -/
  named : identity.package = "" → identity.typeName = ""
  /-- With an empty path the columns show a method. -/
  emptyPath : identity.method = "" ∧ position = "" →
    identity.endpointType = .method ∧ ¬ Marked identity.typeName
  /-- With any other path they show a function, or a method of a type. -/
  anyPath : ¬ (identity.method = "" ∧ position = "") →
    identity.endpointType = .function ∨
      (identity.endpointType = .method ∧ identity.typeName ≠ "" ∧ ¬ Marked identity.typeName)
  /-- The path column falls apart into the method and the position. -/
  separable : Separable identity.method position
  /-- Parameters are not written. -/
  parameters : identity.parameters = ""
  /-- The signature is that of the type and the method. -/
  signature : identity.signature = identity.typeName ++ "#" ++ identity.method

/-- What is read from a path column that was written. -/
theorem parse_pathOf {method position : String} (h : Separable method position) (column : String) :
    parse column (pathOf method position) =
      { package := (splitType column).1
        typeName := bareType (splitType column).2
        method := method
        endpointType :=
          if (method = "" ∧ position = "") ∨
              ((splitType column).2 ≠ "" ∧ ¬ Marked (splitType column).2) then .method
          else .function
        suffix := position } := by
  unfold parse
  rw [chain_pathOf h]
  have hnames : (if method = "" then [] else [method]).dropLast = [] := by split_ifs <;> rfl
  have hlast : (if method = "" then [] else [method]).getLast?.getD "" = method := by
    split_ifs with hm
    · exact hm.symm
    · rfl
  simp only [hnames, hlast, join_texts, show join [] = "" from rfl, append_empty_right,
    ← pathOf_eq_empty_iff, Bool.or_false, Bool.or_eq_true, Bool.and_eq_true, decide_eq_true_eq,
    bne_iff_ne, Bool.not_eq_true', ← Bool.not_eq_true, Text.endsWith_iff, Marked]

/-- A written type shows an instance iff it is a type, and neither is nor becomes marked. -/
theorem written_type_iff {typeName : String} {endpointType : EndpointType} :
    (if typeName ≠ "" ∧ endpointType = .function then typeName ++ "!" else typeName) ≠ "" ∧
        ¬ Marked (if typeName ≠ "" ∧ endpointType = .function then typeName ++ "!" else typeName) ↔
      typeName ≠ "" ∧ endpointType ≠ .function ∧ ¬ Marked typeName := by
  split_ifs with h
  · constructor
    · rintro ⟨-, hmark⟩
      exact absurd (marked_append_marker typeName) hmark
    · rintro ⟨-, hfun, -⟩
      exact absurd h.2 hfun
  · rw [not_and] at h
    constructor
    · rintro ⟨htype, hmark⟩
      exact ⟨htype, h htype, hmark⟩
    · rintro ⟨htype, -, hmark⟩
      exact ⟨htype, hmark⟩

/-- The endpoint type that is read is the one that was written iff the columns can show it. -/
theorem shown_endpointType_iff {typeName : String} {endpointType : EndpointType}
    (hmark : endpointType = .function ∨ ¬ Marked typeName) (emptyPath : Prop)
    [Decidable emptyPath] :
    (if emptyPath ∨ (typeName ≠ "" ∧ endpointType ≠ .function ∧ ¬ Marked typeName) then
        EndpointType.method else .function) = endpointType ↔
      (emptyPath → endpointType = .method ∧ ¬ Marked typeName) ∧
        (¬ emptyPath → endpointType = .function ∨
          (endpointType = .method ∧ typeName ≠ "" ∧ ¬ Marked typeName)) := by
  split_ifs with h
  · constructor
    · rintro rfl
      have hmark' := hmark.resolve_left (by simp)
      refine ⟨fun _ => ⟨rfl, hmark'⟩, fun hpath => ?_⟩
      exact Or.inr ⟨rfl, (h.resolve_left hpath).1, hmark'⟩
    · rintro ⟨hempty, hany⟩
      rcases h with hpath | ⟨-, hfun, -⟩
      · exact (hempty hpath).1.symm
      · by_cases hpath : emptyPath
        · exact (hempty hpath).1.symm
        · exact ((hany hpath).resolve_left hfun).1.symm
  · rw [not_or] at h
    constructor
    · rintro rfl
      exact ⟨fun hpath => absurd hpath h.1, fun _ => Or.inl rfl⟩
    · rintro ⟨-, hany⟩
      rcases hany h.1 with hfun | ⟨rfl, htype, hmark'⟩
      · exact hfun.symm
      · exact absurd ⟨htype, by simp, hmark'⟩ h.2

/-- **The columns of an endpoint are read back** iff it is canonical. -/
theorem parse_written_iff {identity : Identity} {position : String} :
    ((parse (typeColumn identity.package identity.typeName identity.endpointType)
          (pathOf identity.method position)).identity = identity ∧
        (parse (typeColumn identity.package identity.typeName identity.endpointType)
          (pathOf identity.method position)).suffix = position) ↔
      Canonical identity position := by
  obtain ⟨package, typeName, method, parameters, endpointType, sig⟩ := identity
  simp only
  constructor
  · rintro ⟨hidentity, hsuffix⟩
    have hmethod := congrArg Identity.method hidentity
    have hsep := separable_parse (typeColumn package typeName endpointType) (pathOf method position)
    rw [hsuffix, show (parse _ _).method = method from hmethod] at hsep
    rw [parse_pathOf hsep] at hidentity
    simp only [Parsed.identity, signature, Identity.mk.injEq] at hidentity
    obtain ⟨hpackage, htype, -, hparameters, hendpoint, hsig⟩ := hidentity
    obtain ⟨hdot, hnamed, hmark⟩ := splitType_typeColumn_iff.mp ⟨hpackage, htype⟩
    simp only [splitType_typeColumn endpointType hdot hnamed, written_type_iff] at hendpoint
    obtain ⟨hempty, hany⟩ := (shown_endpointType_iff hmark _).mp hendpoint
    exact ⟨hdot, hnamed, hempty, hany, hsep, hparameters.symm, by rw [← hsig, htype]⟩
  · intro h
    have hmark : endpointType = .function ∨ ¬ Marked typeName := by
      by_cases hpath : method = "" ∧ position = ""
      · exact Or.inr (h.emptyPath hpath).2
      · exact (h.anyPath hpath).imp_right fun hmethod => hmethod.2.2
    obtain ⟨hpackage, htype⟩ := splitType_typeColumn_iff.mpr ⟨h.package, h.named, hmark⟩
    rw [parse_pathOf h.separable]
    refine ⟨?_, rfl⟩
    simp only [Parsed.identity, signature, Identity.mk.injEq]
    refine ⟨hpackage, htype, trivial, h.parameters.symm, ?_, ?_⟩
    · simp only [splitType_typeColumn endpointType h.package h.named, written_type_iff]
      exact (shown_endpointType_iff hmark _).mpr ⟨h.emptyPath, h.anyPath⟩
    · rw [htype]
      exact h.signature.symm

/-! ## Write, then read -/

/-- **Write, then read.** A modeled method survives iff it is modeled, its endpoint is canonical and
no tool wrote it. -/
theorem decodeChecked_encode_eq_self_iff (modeled : ModeledMethod) :
    (Ecosystem.python.encode modeled).bind (Ecosystem.python.decodeChecked modeled.variant) =
        .ok modeled ↔
      modeled.model ≠ .none ∧ Canonical modeled.identity (position modeled.model) ∧
        Manual modeled.model := by
  by_cases hmodel : modeled.model = .none
  · obtain ⟨identity, model⟩ := modeled
    obtain rfl : model = .none := hmodel
    simp [Ecosystem.encode, encode?, Except.bind]
  · obtain ⟨row, hrow⟩ := exists_rowOf? hmodel
      (typeColumn modeled.identity.package modeled.identity.typeName modeled.identity.endpointType)
      (pathOf modeled.identity.method (position modeled.model))
    rw [encode_eq_ok_iff.mpr hrow, Except.bind, decodeChecked_eq_ok_iff, ← parse_written_iff]
    constructor
    · rintro ⟨-, hmanual, column, path, hread, hidentity, hsuffix⟩
      obtain ⟨rfl, rfl⟩ := rowOf?_inj hread hrow
      exact ⟨hmodel, ⟨hidentity, hsuffix⟩, hmanual⟩
    · rintro ⟨-, ⟨hidentity, hsuffix⟩, hmanual⟩
      exact ⟨rfl, hmanual, _, _, hrow, hidentity, hsuffix⟩

/-! ## Read, then write and read again -/

/-- **What is read from two columns is canonical** as far as its method and position go. The other
conditions are on the type. -/
theorem canonical_parse_iff (column path : String) :
    Canonical (parse column path).identity (parse column path).suffix ↔
      ((parse column path).identity.package = "" → (parse column path).identity.typeName = "") ∧
        ((parse column path).identity.endpointType = .method →
          ¬ Marked (parse column path).identity.typeName ∧
            ((parse column path).identity.typeName = "" →
              (parse column path).identity.method = "" ∧ (parse column path).suffix = "")) := by
  have hdot : '.' ∉ (parse column path).package.toList := Text.not_mem_splitFirst_fst '.' column
  have hsep := separable_parse column path
  have htype := parse_endpointType column path
  have halone := @parse_alone column path
  generalize parse column path = parsed at *
  simp only [Parsed.identity]
  constructor
  · intro h
    refine ⟨h.named, fun hmethod => ?_⟩
    by_cases hpath : parsed.method = "" ∧ parsed.suffix = ""
    · exact ⟨(h.emptyPath hpath).2, fun _ => hpath⟩
    · obtain hfun | ⟨-, hne, hmark⟩ := h.anyPath hpath
      · exact absurd (hmethod.symm.trans hfun) (by simp)
      · exact ⟨hmark, fun hempty => absurd hempty hne⟩
  · rintro ⟨hnamed, hmethod⟩
    refine ⟨hdot, hnamed, fun hpath => ?_, fun hpath => ?_, hsep, rfl, rfl⟩
    · have hshown := halone hpath.1 hpath.2
      exact ⟨hshown, (hmethod hshown).1⟩
    · rcases htype with hshown | hshown
      · exact Or.inr ⟨hshown, fun hempty => hpath ((hmethod hshown).2 hempty), (hmethod hshown).1⟩
      · exact Or.inl hshown

/-- **Read, write, read.** What was read can be written and read again. The model and the method
stay; the endpoint stays iff its type stands in a package and, for a method, is a type without the
marker that the columns show. -/
theorem reread_of_decodeChecked {variant : Variant} {row : Row} {modeled : ModeledMethod}
    (h : Ecosystem.python.decodeChecked variant row = .ok modeled) :
    ∃ written again, Ecosystem.python.encode modeled = .ok written ∧
      Ecosystem.python.decodeChecked variant written = .ok again ∧
      again.model = modeled.model ∧ again.identity.method = modeled.identity.method ∧
      (again = modeled ↔
        (modeled.identity.package = "" → modeled.identity.typeName = "") ∧
          (modeled.identity.endpointType = .method → ¬ Marked modeled.identity.typeName ∧
            (modeled.identity.typeName = "" →
              modeled.identity.method = "" ∧ position modeled.model = ""))) := by
  obtain ⟨rfl, hmanual, column, path, hrow, hidentity, hsuffix⟩ := decodeChecked_eq_ok_iff.mp h
  obtain ⟨identity, model⟩ := modeled
  simp only at hidentity hsuffix hrow hmanual ⊢
  have hmodel : model ≠ .none := by
    rintro rfl
    exact absurd hrow (by simp [rowOf?])
  have hsep : Separable identity.method (position model) := by
    rw [← hidentity, ← hsuffix]
    exact separable_parse column path
  obtain ⟨written, hwritten⟩ := exists_rowOf? hmodel
    (typeColumn identity.package identity.typeName identity.endpointType)
    (pathOf identity.method (position model))
  have hread := parse_pathOf hsep
    (typeColumn identity.package identity.typeName identity.endpointType)
  refine ⟨written, ⟨(parse _ _).identity, model⟩, encode_eq_ok_iff.mpr hwritten,
    decodeChecked_eq_ok_iff.mpr ⟨rfl, hmanual, _, _, hwritten, rfl, ?_⟩, rfl, ?_, ?_⟩
  · rw [hread]
  · rw [hread]
    rfl
  · rw [ModeledMethod.mk.injEq, and_iff_left rfl]
    have hwrites : (parse (typeColumn identity.package identity.typeName identity.endpointType)
        (pathOf identity.method (position model))).suffix = position model := by rw [hread]
    rw [← and_iff_left (a := _ = identity) hwrites, parse_written_iff, ← hidentity, ← hsuffix]
    exact canonical_parse_iff column path

/-- A method that the type column shows stays. -/
theorem reread_cursor :
    Ecosystem.python.decodeChecked .sink
        [.text "django.db", .text "Member[Connection].Instance.Member[cursor].Argument[0]",
          .text "sql-injection"] =
      .ok ⟨⟨"django", "db.Connection", "cursor", "", .method, "db.Connection#cursor"⟩,
        .sink "Argument[0]" "sql-injection" .manual⟩ ∧
    ∃ written,
      Ecosystem.python.encode
          ⟨⟨"django", "db.Connection", "cursor", "", .method, "db.Connection#cursor"⟩,
            .sink "Argument[0]" "sql-injection" .manual⟩ = .ok written ∧
        Ecosystem.python.decodeChecked .sink written =
          .ok ⟨⟨"django", "db.Connection", "cursor", "", .method, "db.Connection#cursor"⟩,
            .sink "Argument[0]" "sql-injection" .manual⟩ := by
  have hread : Ecosystem.python.decodeChecked .sink
      [.text "django.db", .text "Member[Connection].Instance.Member[cursor].Argument[0]",
        .text "sql-injection"] =
      .ok ⟨⟨"django", "db.Connection", "cursor", "", .method, "db.Connection#cursor"⟩,
        .sink "Argument[0]" "sql-injection" .manual⟩ := by decide
  obtain ⟨written, again, hwritten, hagain, -, -, hsame⟩ := reread_of_decodeChecked hread
  rw [hsame.mpr (by decide)] at hagain
  exact ⟨hread, written, hwritten, hagain⟩

/-- A method that only `Instance` tells from a function becomes a function. -/
theorem instance_lost :
    ¬ ∀ (variant : Variant) (row : Row) (modeled : ModeledMethod),
      Ecosystem.python.decodeChecked variant row = .ok modeled →
        ∃ written, Ecosystem.python.encode modeled = .ok written ∧
          Ecosystem.python.decodeChecked variant written = .ok modeled := by
  intro h
  obtain ⟨written, hwritten, hagain⟩ :=
    h .sink [.text "p", .text "Member[f].Instance.Argument[0]", .text "k"]
      ⟨⟨"p", "", "f", "", .method, "#f"⟩, .sink "Argument[0]" "k" .manual⟩ (by decide)
  have hrow : Ecosystem.python.encode
      ⟨⟨"p", "", "f", "", .method, "#f"⟩, .sink "Argument[0]" "k" .manual⟩ =
      .ok [.text "p", .text "Member[f].Argument[0]", .text "k"] := by decide
  obtain rfl := Except.ok.inj (hwritten.symm.trans hrow)
  exact absurd hagain (by decide)

end Dataflow.MemberChain
