import Dataflow.Proofs.MemberChain.MethodOnly
import Mathlib.Logic.Function.Basic

/-!
# Rows that are rejected

A row is held against the columns of its variant before it is read, so a row that is read has a text
wherever its reader looks for one. What is wrong with a row is said of that row alone: the others of
a list are read as if it were not there.

* `FirstMisfit columns row index kind`: the first column that does not hold what its kind asks for.
* `Misshapen`, `Rejected`: why a row does not have some columns, and why it is not read.
* `MethodOnly`, `NamesMore`: the path of a row is to name a method only, and it names more.
* `Reads ecosystem variant i`: what is read of a row depends on the text of column `i`.

Results:
* `checkShape_eq_error_iff`, `decode_eq_error_iff`: the errors of the check and of the reader.
* `decodeCells_congr`: a reader looks at text columns only.
* `decodeRows_eq_filterMap`: the rows of a list are read or skipped one by one.
* `rejections_exact`: rows are rejected as said, and what is rejected is skipped and counted.
-/

namespace Dataflow

/-! ## Shapes -/

/-- Column `index` is of the given kind and holds something else, and all columns before it hold
what they should. -/
structure FirstMisfit (columns : List ColumnKind) (row : Row) (index : Nat) (kind : ColumnKind) :
    Prop where
  asked : columns[index]? = some kind
  misfit : ∃ value, row[index]? = some value ∧ kind.accepts value = false
  before : ∀ i < index, ∀ kind value, columns[i]? = some kind → row[i]? = some value →
    kind.accepts value = true

/-- What is wrong with the shape of a row. -/
inductive Misshapen (variant : Variant) (columns : List ColumnKind) (row : Row) : RowError → Prop
  | arity (hlength : row.length ≠ columns.length) :
      Misshapen variant columns row (.arity variant columns.length row.length)
  | kind {index : Nat} {kind : ColumnKind} (hlength : row.length = columns.length)
      (hfirst : FirstMisfit columns row index kind) :
      Misshapen variant columns row (.columnKind variant index kind)

section

variable {column kind : ColumnKind} {columns : List ColumnKind} {value : Scalar} {row : Row}

theorem firstMisfit_zero :
    FirstMisfit (column :: columns) (value :: row) 0 kind ↔
      column = kind ∧ column.accepts value = false := by
  constructor
  · rintro ⟨hasked, ⟨found, hfound, hmisfit⟩, -⟩
    obtain rfl := Option.some.inj hasked
    obtain rfl := Option.some.inj hfound
    exact ⟨rfl, hmisfit⟩
  · rintro ⟨rfl, hmisfit⟩
    exact ⟨rfl, ⟨value, rfl, hmisfit⟩, fun i hi => absurd hi (Nat.not_lt_zero i)⟩

theorem firstMisfit_succ {index : Nat} :
    FirstMisfit (column :: columns) (value :: row) (index + 1) kind ↔
      column.accepts value = true ∧ FirstMisfit columns row index kind := by
  constructor
  · rintro ⟨hasked, hmisfit, hbefore⟩
    refine ⟨hbefore 0 (Nat.succ_pos index) column value rfl rfl, hasked, hmisfit, ?_⟩
    intro i hi
    exact hbefore (i + 1) (Nat.succ_lt_succ hi)
  · rintro ⟨haccepts, hasked, hmisfit, hbefore⟩
    refine ⟨hasked, hmisfit, fun i hi other found hother hfound => ?_⟩
    cases i with
    | zero =>
      obtain rfl := Option.some.inj hother
      obtain rfl := Option.some.inj hfound
      exact haccepts
    | succ i => exact hbefore i (Nat.lt_of_succ_lt_succ hi) other found hother hfound

end

/-- **The search for a misfit finds the first one**, counted from where the search starts. -/
theorem firstMismatch?_eq_some_iff {kind : ColumnKind} :
    ∀ {start n : Nat} {columns : List ColumnKind} {row : Row},
      firstMismatch? start columns row = some (n, kind) ↔
        ∃ index, n = start + index ∧ FirstMisfit columns row index kind
  | start, n, [], row => by
    constructor
    · intro h
      simp [firstMismatch?] at h
    · rintro ⟨index, -, hfirst⟩
      simpa using hfirst.asked
  | start, n, _ :: _, [] => by
    constructor
    · intro h
      simp [firstMismatch?] at h
    · rintro ⟨index, -, hfirst⟩
      obtain ⟨value, hvalue, -⟩ := hfirst.misfit
      simp at hvalue
  | start, n, column :: columns, value :: row => by
    rw [firstMismatch?]
    split_ifs with haccepts
    · rw [firstMismatch?_eq_some_iff]
      constructor
      · rintro ⟨index, rfl, hfirst⟩
        exact ⟨index + 1, by omega, firstMisfit_succ.mpr ⟨haccepts, hfirst⟩⟩
      · rintro ⟨index, rfl, hfirst⟩
        cases index with
        | zero =>
          rw [(firstMisfit_zero.mp hfirst).2] at haccepts
          exact absurd haccepts (by decide)
        | succ index => exact ⟨index, by omega, (firstMisfit_succ.mp hfirst).2⟩
    · rw [Option.some.injEq, Prod.mk.injEq]
      constructor
      · rintro ⟨rfl, rfl⟩
        exact ⟨0, rfl, firstMisfit_zero.mpr ⟨rfl, by simpa using haccepts⟩⟩
      · rintro ⟨index, rfl, hfirst⟩
        cases index with
        | zero => exact ⟨rfl, (firstMisfit_zero.mp hfirst).1⟩
        | succ index => exact absurd (firstMisfit_succ.mp hfirst).1 haccepts

/-- **The error of the shape check.** -/
theorem checkShape_eq_error_iff {variant : Variant} {columns : List ColumnKind} {row : Row}
    {error : RowError} :
    checkShape variant columns row = .error error ↔ Misshapen variant columns row error := by
  unfold checkShape
  split_ifs with hlength
  · constructor
    · rintro ⟨⟩
      exact .arity hlength
    · rintro (_ | ⟨hsame, -⟩)
      · rfl
      · exact absurd hsame hlength
  · constructor
    · intro h
      cases hfound : firstMismatch? 0 columns row with
      | none => simp [hfound] at h
      | some found =>
        obtain ⟨n, kind⟩ := found
        simp only [hfound, Except.error.injEq] at h
        obtain ⟨index, rfl, hfirst⟩ := firstMismatch?_eq_some_iff.mp hfound
        rw [← h, Nat.zero_add]
        exact .kind (not_not.mp hlength) hfirst
    · rintro (hdiffer | ⟨-, hfirst⟩)
      · exact absurd hdiffer hlength
      · rw [firstMismatch?_eq_some_iff.mpr ⟨_, (Nat.zero_add _).symm, hfirst⟩]

/-- A text column of a row of the right shape holds a text. -/
theorem exists_text_of_forall₂ {columns : List ColumnKind} {row : Row}
    (h : List.Forall₂ (fun kind value => kind.accepts value = true) columns row) :
    ∀ {i : Nat}, columns[i]? = some .text → ∃ text, row[i]? = some (.text text) := by
  induction h with
  | nil => simp
  | cons hfirst _ ih =>
    intro i hi
    cases i with
    | zero =>
      obtain rfl := Option.some.inj hi
      obtain ⟨text, rfl⟩ := accepts_text_iff.mp hfirst
      exact ⟨text, rfl⟩
    | succ i => exact ih hi

/-! ## What a reader looks at -/

section

variable {cell cell' : Nat → String} {variant : Variant} {columns : List ColumnKind}

theorem Flat.decode?_congr (hcolumns : columns? variant = some columns)
    (h : ∀ i, columns[i]? = some .text → cell i = cell' i) :
    decode? cell variant = decode? cell' variant := by
  cases variant <;> cases hcolumns <;> simp [decode?, h]

theorem MemberChain.decode_congr (hcolumns : columns? variant = some columns)
    (h : ∀ i, columns[i]? = some .text → cell i = cell' i) :
    decode cell variant = decode cell' variant := by
  cases variant <;> cases hcolumns <;> simp [decode, h]

theorem MethodToken.decode?_congr (hcolumns : columns? variant = some columns)
    (h : ∀ i, columns[i]? = some .text → cell i = cell' i) :
    decode? cell variant = decode? cell' variant := by
  cases variant <;> cases hcolumns <;> simp [decode?, h]

end

theorem Flat.isSome_decode? (cell : Nat → String) (variant : Variant) :
    (decode? cell variant).isSome = (columns? variant).isSome := by
  cases variant <;> rfl

theorem MethodToken.isSome_decode? (cell : Nat → String) (variant : Variant) :
    (decode? cell variant).isSome = (columns? variant).isSome := by
  cases variant <;> rfl

namespace Ecosystem

variable {ecosystem : Ecosystem} {variant : Variant} {row : Row}

/-- **A reader looks at text columns only.** -/
theorem decodeCells_congr {cell cell' : Nat → String} {columns : List ColumnKind}
    (hcolumns : ecosystem.columns? variant = some columns)
    (h : ∀ i, columns[i]? = some .text → cell i = cell' i) :
    ecosystem.decodeCells variant cell = ecosystem.decodeCells variant cell' := by
  unfold decodeCells
  cases ecosystem with
  | java => simp only [Flat.decode?_congr hcolumns h]
  | csharp => simp only [Flat.decode?_congr hcolumns h]
  | python => exact MemberChain.decode_congr hcolumns h
  | ruby => simp only [MethodToken.decode?_congr hcolumns h]

/-- What is read of a row depends on the text of a column. -/
def Reads (ecosystem : Ecosystem) (variant : Variant) (i : Nat) : Prop :=
  ∃ cell text, ecosystem.decodeCells variant (Function.update cell i text) ≠
    ecosystem.decodeCells variant cell

theorem Reads.isText {i : Nat} (h : ecosystem.Reads variant i) {columns : List ColumnKind}
    (hcolumns : ecosystem.columns? variant = some columns) : columns[i]? = some .text := by
  obtain ⟨cell, text, hdiffer⟩ := h
  by_contra hnot
  refine hdiffer (decodeCells_congr hcolumns fun j hj => ?_)
  have hne : j ≠ i := by
    rintro rfl
    exact hnot hj
  exact Function.update_of_ne hne text cell

/-- **A column that is read holds a text**, so nothing is ever put in its place. -/
theorem reads_of_fits (hfits : ecosystem.Fits variant row) :
    (∀ i, ecosystem.Reads variant i → ∃ text, row[i]? = some (.text text)) ∧
      ∀ missing : Nat → String,
        ecosystem.decodeCells variant
            (fun i => (row[i]?.bind Scalar.text?).getD (missing i)) =
          ecosystem.decode variant row := by
  obtain ⟨columns, hcolumns, hshape⟩ := hfits
  refine ⟨fun i hreads => exists_text_of_forall₂ hshape (hreads.isText hcolumns), ?_⟩
  intro missing
  refine decodeCells_congr hcolumns fun i hi => ?_
  obtain ⟨text, htext⟩ := exists_text_of_forall₂ hshape hi
  rw [Row.textAt, htext]
  rfl

/-! ## Why a row is not read -/

/-- The path of a row of the variant is to name a method only. -/
def MethodOnly (ecosystem : Ecosystem) (variant : Variant) : Prop :=
  ecosystem = .python ∧ (variant = .summary ∨ variant = .neutral)

/-- The row is to name a method only, and behind the chain of its path there is some text. -/
structure NamesMore (ecosystem : Ecosystem) (variant : Variant) (row : Row) : Prop where
  methodOnly : ecosystem.MethodOnly variant
  suffix : (MemberChain.parse (row.textAt 0) (row.textAt 1)).suffix ≠ ""

/-- Why a row is not read: the variant has no columns, the row does not have them, or it has them
and its path names more than a method. -/
inductive Rejected (ecosystem : Ecosystem) (variant : Variant) (row : Row) : RowError → Prop
  | variant (hcolumns : ecosystem.columns? variant = none) :
      Rejected ecosystem variant row (.unsupportedVariant ecosystem variant)
  | shape {columns : List ColumnKind} {error : RowError}
      (hcolumns : ecosystem.columns? variant = some columns)
      (hshape : Misshapen variant columns row error) : Rejected ecosystem variant row error
  | path (hfits : ecosystem.Fits variant row) (hmore : ecosystem.NamesMore variant row) :
      Rejected ecosystem variant row
        (.methodPathExpected (row.textAt 1)
          (MemberChain.parse (row.textAt 0) (row.textAt 1)).suffix)

/-- Rows that may name more than a method are read whatever their texts are. -/
theorem exists_decode (hmethod : ¬ ecosystem.MethodOnly variant)
    (hsupports : ecosystem.Supports variant) (row : Row) :
    ∃ modeled, ecosystem.decode variant row = .ok modeled := by
  have hread : ∀ {modeled? : Option ModeledMethod} {error : RowError}, modeled?.isSome →
      ∃ modeled, modeled?.elim (.error error) Except.ok = Except.ok modeled := by
    intro modeled? error hsome
    obtain ⟨modeled, rfl⟩ := Option.isSome_iff_exists.mp hsome
    exact ⟨modeled, rfl⟩
  have hne := hsupports.ne_none
  unfold Supports at hsupports
  cases ecosystem with
  | java => exact hread (by rwa [Flat.isSome_decode?])
  | csharp => exact hread (by rwa [Flat.isSome_decode?])
  | ruby => exact hread (by rwa [MethodToken.isSome_decode?])
  | python =>
    cases variant with
    | none => exact absurd rfl hne
    | summary => exact absurd ⟨rfl, Or.inl rfl⟩ hmethod
    | neutral => exact absurd ⟨rfl, Or.inr rfl⟩ hmethod
    | source => exact ⟨_, rfl⟩
    | sink => exact ⟨_, rfl⟩
    | type => exact ⟨_, rfl⟩

/-- **The error of a reader.** Every row of a supported variant is read, unless its path names more
than a method. -/
theorem decode_eq_error_iff (hsupports : ecosystem.Supports variant) {error : RowError} :
    ecosystem.decode variant row = .error error ↔
      ecosystem.NamesMore variant row ∧
        error = .methodPathExpected (row.textAt 1)
          (MemberChain.parse (row.textAt 0) (row.textAt 1)).suffix := by
  by_cases hmethod : ecosystem.MethodOnly variant
  · obtain ⟨rfl, hvariant⟩ := hmethod
    obtain ⟨f, hf⟩ := MemberChain.decode_eq_map hvariant row
    rw [hf, MemberChain.map_parseMethod_eq_error_iff]
    refine and_congr_left fun _ => ⟨fun hsuffix => ⟨⟨rfl, hvariant⟩, hsuffix⟩, ?_⟩
    exact NamesMore.suffix
  · obtain ⟨modeled, hmodeled⟩ := exists_decode hmethod hsupports row
    have hnot : ¬ ecosystem.NamesMore variant row := fun hmore => hmethod hmore.methodOnly
    rw [hmodeled, iff_false_right (not_and_of_not_left _ hnot)]
    exact nofun

theorem Fits.supports (h : ecosystem.Fits variant row) : ecosystem.Supports variant := by
  obtain ⟨columns, hcolumns, -⟩ := h
  exact Option.isSome_iff_exists.mpr ⟨columns, hcolumns⟩

/-- **A row is not read** for the reasons given, and each is reported as said. -/
theorem decodeChecked_eq_error_iff {error : RowError} :
    ecosystem.decodeChecked variant row = .error error ↔
      ecosystem.Rejected variant row error := by
  constructor
  · intro h
    unfold decodeChecked at h
    cases hcolumns : ecosystem.columns? variant with
    | none =>
      simp only [hcolumns, Except.error.injEq] at h
      rw [← h]
      exact .variant hcolumns
    | some columns =>
      cases hshape : checkShape variant columns row with
      | error misfit =>
        simp only [hcolumns, hshape, Except.error.injEq] at h
        rw [← h]
        exact .shape hcolumns (checkShape_eq_error_iff.mp hshape)
      | ok _ =>
        simp only [hcolumns, hshape] at h
        have hfits : ecosystem.Fits variant row :=
          ⟨columns, hcolumns, checkShape_eq_ok_iff.mp hshape⟩
        obtain ⟨hmore, rfl⟩ := (decode_eq_error_iff hfits.supports).mp h
        exact .path hfits hmore
  · rintro (hcolumns | ⟨hcolumns, hshape⟩ | ⟨hfits, hmore⟩)
    · rw [decodeChecked, hcolumns]
    · rw [decodeChecked, hcolumns]
      simp only [checkShape_eq_error_iff.mpr hshape]
    · rw [decodeChecked_of_fits hfits]
      exact (decode_eq_error_iff hfits.supports).mpr ⟨hmore, rfl⟩

/-- **Any other row is read.** -/
theorem exists_decodeChecked_iff :
    (∃ modeled, ecosystem.decodeChecked variant row = .ok modeled) ↔
      ecosystem.Fits variant row ∧ ¬ ecosystem.NamesMore variant row := by
  constructor
  · rintro ⟨modeled, hmodeled⟩
    have hfits := (decodeChecked_eq_ok_iff.mp hmodeled).1
    refine ⟨hfits, fun hmore => ?_⟩
    rw [decodeChecked_eq_error_iff.mpr (.path hfits hmore)] at hmodeled
    exact absurd hmodeled nofun
  · rintro ⟨hfits, hmore⟩
    rw [decodeChecked_of_fits hfits]
    cases hread : ecosystem.decode variant row with
    | ok modeled => exact ⟨modeled, rfl⟩
    | error error => exact absurd ((decode_eq_error_iff hfits.supports).mp hread).1 hmore

/-! ## Many rows -/

/-- **The rows of a list are read or skipped one by one.** -/
theorem decodeRows_eq_filterMap (hsupports : ecosystem.Supports variant) (rows : List Row) :
    ecosystem.decodeRows variant rows =
      .ok ⟨rows.filterMap fun row => (ecosystem.decodeChecked variant row).toOption,
        rows.countP fun row => (ecosystem.decodeChecked variant row).toOption.isNone⟩ := by
  obtain ⟨columns, hcolumns⟩ := Option.isSome_iff_exists.mp hsupports
  unfold decodeRows
  rw [hcolumns]
  simp only [Except.ok.injEq]
  induction rows with
  | nil => rfl
  | cons row rows ih =>
    rw [List.foldr_cons, ih]
    unfold DecodedRows.read
    cases hread : ecosystem.decodeChecked variant row with
    | ok modeled => simp [hread, Except.toOption]
    | error error => simp [hread, Except.toOption]

/-- Every row is read or skipped. -/
theorem length_filterMap_add_countP {α β : Type} (f : α → Option β) (xs : List α) :
    (xs.filterMap f).length + xs.countP (fun x => (f x).isNone) = xs.length := by
  rw [List.length_filterMap_eq_countP, List.length_eq_countP_add_countP fun x => (f x).isSome]
  exact congrArg _ (List.countP_congr fun x _ => by simp)

/-- **Rows are rejected as said, and rejected rows do no harm.** The error of a row is that of the
first check it fails: its variant has columns, it has as many, each is of its kind, and, for rows of
a whole method, the path names nothing else. A row that passes is read, each column that is read
holds a text, and what would stand for a missing one does not matter. In a list of rows of a
supported variant, those that pass are read in order and the others are counted, so that two lists
are read together as one after the other. -/
theorem rejections_exact (ecosystem : Ecosystem) (variant : Variant) :
    (∀ row : Row,
      (∀ error, ecosystem.decodeChecked variant row = .error error ↔
        ecosystem.Rejected variant row error) ∧
      ((∃ modeled, ecosystem.decodeChecked variant row = .ok modeled) ↔
        ecosystem.Fits variant row ∧ ¬ ecosystem.NamesMore variant row) ∧
      (ecosystem.Fits variant row →
        (∀ i, ecosystem.Reads variant i → ∃ text, row[i]? = some (.text text)) ∧
        ∀ missing : Nat → String,
          ecosystem.decodeCells variant
              (fun i => (row[i]?.bind Scalar.text?).getD (missing i)) =
            ecosystem.decode variant row)) ∧
    (ecosystem.Supports variant →
      (∀ rows, ∃ decoded, ecosystem.decodeRows variant rows = .ok decoded ∧
        decoded.models =
          (rows.filterMap fun row => (ecosystem.decodeChecked variant row).toOption) ∧
        decoded.models.length + decoded.skipped = rows.length) ∧
      ∀ front back decoded decoded', ecosystem.decodeRows variant front = .ok decoded →
        ecosystem.decodeRows variant back = .ok decoded' →
          ecosystem.decodeRows variant (front ++ back) =
            .ok ⟨decoded.models ++ decoded'.models, decoded.skipped + decoded'.skipped⟩) := by
  refine ⟨fun row => ⟨fun error => decodeChecked_eq_error_iff, exists_decodeChecked_iff,
    reads_of_fits⟩, fun hsupports => ⟨fun rows => ?_, ?_⟩⟩
  · exact ⟨_, decodeRows_eq_filterMap hsupports rows, rfl, length_filterMap_add_countP _ rows⟩
  · intro front back decoded decoded' hfront hback
    rw [decodeRows_eq_filterMap hsupports, Except.ok.injEq] at hfront hback
    rw [decodeRows_eq_filterMap hsupports, List.filterMap_append, List.countP_append, ← hfront,
      ← hback]

/-- A text where a boolean should stand costs its own row only, and the provenance is read from the
last column. -/
theorem rejections_createQuery :
    let row (subtypes : Scalar) : Row :=
      [.text "org.sql2o", .text "Connection", subtypes, .text "createQuery", .text "(String)",
        .text "", .text "Argument[0]", .text "sql-injection", .text "ai-manual"]
    java.Fits .sink (row (.boolean true)) ∧ java.Reads .sink 8 ∧
      (∃ text, (row (.boolean true))[8]? = some (.text text)) ∧
      java.decodeChecked .sink (row (.text "true")) = .error (.columnKind .sink 2 .boolean) ∧
      ∃ decoded, java.decodeRows .sink [row (.text "true"), row (.boolean true)] = .ok decoded ∧
        decoded.models.length + decoded.skipped = 2 := by
  intro row
  have hfits : java.Fits .sink (row (.boolean true)) :=
    ⟨_, rfl, (@checkShape_eq_ok_iff .sink _ _).mp rfl⟩
  have hreads : java.Reads .sink 8 := ⟨fun _ => "manual", "ai-manual", by decide⟩
  obtain ⟨hrows, hlists⟩ := rejections_exact java .sink
  obtain ⟨decoded, hdecoded, -, hlength⟩ :=
    (hlists hfits.supports).1 [row (.text "true"), row (.boolean true)]
  refine ⟨hfits, hreads, ((hrows _).2.2 hfits).1 8 hreads, ?_, decoded, hdecoded, hlength⟩
  exact ((hrows _).1 _).mpr (.shape rfl (checkShape_eq_error_iff.mp rfl))

end Ecosystem

end Dataflow
