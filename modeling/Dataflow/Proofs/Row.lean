import Dataflow.Codec
import Mathlib.Data.List.Forall2
import Mathlib.Tactic.SplitIfs

/-!
# Rows of a fixed shape

* `Ecosystem.Fits ecosystem variant row`: the row has the columns of the variant.
* `Ecosystem.Supports ecosystem variant`: the variant has columns.

Results:
* `checkShape_eq_ok_iff`: a row is accepted iff it has one value for each column and each value is
  of its column's kind.
* `forall₂_text_iff`: a row of text columns is a row of texts.
* `Ecosystem.decodeChecked_eq_ok_iff`: a row is read iff it fits and its texts can be read.
* `Ecosystem.exists_encode_iff`: a modeled method is written iff its variant is supported.
-/

namespace Dataflow

/-! ## Shapes -/

theorem accepts_text_iff {value : Scalar} :
    ColumnKind.text.accepts value = true ↔ ∃ text, value = .text text := by
  cases value <;> simp [ColumnKind.accepts]

theorem accepts_boolean_iff {value : Scalar} :
    ColumnKind.boolean.accepts value = true ↔ ∃ b, value = .boolean b := by
  cases value <;> simp [ColumnKind.accepts]

theorem firstMismatch?_eq_none_iff :
    ∀ (index : Nat) {columns : List ColumnKind} {row : Row}, row.length = columns.length →
      (firstMismatch? index columns row = none ↔
        List.Forall₂ (fun kind value => kind.accepts value = true) columns row)
  | _, [], [], _ => by simp [firstMismatch?]
  | index, kind :: columns, value :: row, h => by
    have hlen : row.length = columns.length := by simpa using h
    rw [List.forall₂_cons, ← firstMismatch?_eq_none_iff (index + 1) hlen, firstMismatch?]
    split_ifs with hk
    · simp [hk]
    · simp [hk]

/-- **The shape check is exact.** -/
theorem checkShape_eq_ok_iff {variant : Variant} {columns : List ColumnKind} {row : Row} :
    checkShape variant columns row = .ok () ↔
      List.Forall₂ (fun kind value => kind.accepts value = true) columns row := by
  unfold checkShape
  split_ifs with hlen
  · exact ⟨fun h => by simp at h, fun h => absurd h.length_eq.symm hlen⟩
  · rw [← firstMismatch?_eq_none_iff 0 (not_not.mp hlen)]
    cases firstMismatch? 0 columns row <;> simp

/-- A row of text columns is a row of texts. -/
theorem forall₂_text_iff : ∀ {n : Nat} {row : Row},
    List.Forall₂ (fun kind value => kind.accepts value = true)
        (List.replicate n ColumnKind.text) row ↔
      ∃ cells : List String, cells.length = n ∧ row = cells.map Scalar.text
  | 0, row => by simp [List.length_eq_zero_iff]
  | n + 1, row => by
    rw [List.replicate_succ, List.forall₂_cons_left_iff]
    simp only [accepts_text_iff, forall₂_text_iff]
    constructor
    · rintro ⟨_, _, ⟨text, rfl⟩, ⟨cells, rfl, rfl⟩, rfl⟩
      exact ⟨text :: cells, rfl, rfl⟩
    · rintro ⟨cells, hlen, rfl⟩
      cases cells with
      | nil => exact absurd hlen (by simp)
      | cons text cells =>
        exact ⟨.text text, _, ⟨text, rfl⟩, ⟨cells, by simpa using hlen, rfl⟩, rfl⟩

/-- The cells of a row of three text columns. -/
theorem three_texts {row : Row}
    (h : List.Forall₂ (fun kind value => kind.accepts value = true)
      [ColumnKind.text, .text, .text] row) :
    ∃ a b c, row = [.text a, .text b, .text c] := by
  obtain ⟨cells, hlen, rfl⟩ := (forall₂_text_iff (n := 3)).mp h
  obtain ⟨a, b, c, rfl⟩ := List.length_eq_three.mp hlen
  exact ⟨a, b, c, rfl⟩

/-- The cells of a row of five text columns. -/
theorem five_texts {row : Row}
    (h : List.Forall₂ (fun kind value => kind.accepts value = true)
      [ColumnKind.text, .text, .text, .text, .text] row) :
    ∃ a b c d e, row = [.text a, .text b, .text c, .text d, .text e] := by
  obtain ⟨cells, hlen, rfl⟩ := (forall₂_text_iff (n := 5)).mp h
  match cells, hlen with
  | [a, b, c, d, e], _ => exact ⟨a, b, c, d, e, rfl⟩

/-! ## Models that have a row -/

theorem Flat.isSome_encode? (identity : Identity) (model : Model) :
    (Flat.encode? identity model).isSome = (Flat.columns? model.variant).isSome := by
  cases model <;> rfl

theorem MemberChain.isSome_encode? (identity : Identity) (model : Model) :
    (MemberChain.encode? identity model).isSome = (MemberChain.columns? model.variant).isSome := by
  cases model <;> rfl

theorem MethodToken.isSome_encode? (identity : Identity) (model : Model) :
    (MethodToken.encode? identity model).isSome = (MethodToken.columns? model.variant).isSome := by
  cases model <;> rfl

/-! ## Rows of a variant -/

namespace Ecosystem

/-- A row has the columns of a variant, each with a value of its kind. -/
def Fits (ecosystem : Ecosystem) (variant : Variant) (row : Row) : Prop :=
  ∃ columns, ecosystem.columns? variant = some columns ∧
    List.Forall₂ (fun kind value => kind.accepts value = true) columns row

/-- A row is read iff it has the shape of a variant that is supported and its texts can be read. -/
theorem decodeChecked_eq_ok_iff {ecosystem : Ecosystem} {variant : Variant} {row : Row}
    {modeled : ModeledMethod} :
    ecosystem.decodeChecked variant row = .ok modeled ↔
      ecosystem.Fits variant row ∧ ecosystem.decode variant row = .ok modeled := by
  unfold decodeChecked Fits
  cases hcolumns : ecosystem.columns? variant with
  | none => simp
  | some columns =>
    simp only [Option.some.injEq, exists_eq_left', ← @checkShape_eq_ok_iff variant]
    cases hshape : checkShape variant columns row <;> simp

/-- A row that fits is read like a row of any shape. -/
theorem decodeChecked_of_fits {ecosystem : Ecosystem} {variant : Variant} {row : Row}
    (h : ecosystem.Fits variant row) :
    ecosystem.decodeChecked variant row = ecosystem.decode variant row := by
  obtain ⟨columns, hcolumns, hshape⟩ := h
  rw [decodeChecked, hcolumns]
  simp only [(@checkShape_eq_ok_iff variant _ _).mpr hshape]

/-! ## Supported variants -/

/-- A variant that has columns. -/
def Supports (ecosystem : Ecosystem) (variant : Variant) : Prop :=
  (ecosystem.columns? variant).isSome

instance (ecosystem : Ecosystem) (variant : Variant) : Decidable (ecosystem.Supports variant) :=
  inferInstanceAs (Decidable (_ = true))

theorem Supports.ne_none {ecosystem : Ecosystem} {variant : Variant}
    (h : ecosystem.Supports variant) : variant ≠ .none := by
  rintro rfl
  cases ecosystem <;> exact absurd h (by decide)

/-- The predicate of a supported variant is the one that all ecosystems share. -/
theorem predicate?_of_supports {ecosystem : Ecosystem} {variant : Variant}
    (h : ecosystem.Supports variant) : ecosystem.predicate? variant = variant.predicate? := by
  obtain ⟨columns, hcolumns⟩ := Option.isSome_iff_exists.mp h
  unfold predicate?
  rw [hcolumns]
  rfl

theorem supports_of_predicate? {ecosystem : Ecosystem} {variant : Variant} {predicate : String}
    (h : ecosystem.predicate? variant = some predicate) : ecosystem.Supports variant := by
  obtain ⟨columns, hcolumns, -⟩ := Option.bind_eq_some_iff.mp h
  exact Option.isSome_iff_exists.mpr ⟨columns, hcolumns⟩

/-- A variant that is supported has a predicate. -/
theorem exists_predicate {ecosystem : Ecosystem} {variant : Variant}
    (h : ecosystem.Supports variant) :
    ∃ predicate, ecosystem.predicate? variant = some predicate := by
  rw [predicate?_of_supports h]
  cases variant with
  | none => exact absurd rfl h.ne_none
  | _ => exact ⟨_, rfl⟩

/-- **A modeled method is written** iff its variant is supported. -/
theorem exists_encode_iff {ecosystem : Ecosystem} {modeled : ModeledMethod} :
    (∃ row, ecosystem.encode modeled = .ok row) ↔ ecosystem.Supports modeled.variant := by
  have hrow : ∀ (row? : Option Row) (error : RowError),
      (∃ row, row?.elim (.error error) Except.ok = Except.ok row) ↔ row?.isSome := by
    intro row? error
    cases row? <;> simp
  unfold encode Supports
  rw [hrow]
  cases ecosystem with
  | java => rw [Flat.isSome_encode?]; rfl
  | csharp => rw [Flat.isSome_encode?]; rfl
  | python => rw [MemberChain.isSome_encode?]; rfl
  | ruby => rw [MethodToken.isSome_encode?]; rfl

end Ecosystem

end Dataflow
