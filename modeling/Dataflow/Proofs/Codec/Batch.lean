import Dataflow.Proofs.Keyed
import Dataflow.Proofs.Row

/-!
# Lists of models, written and read

`encodeModels` writes a list of models and files the rows under the predicates of their variants;
`decodeRows` reads the rows of one variant.

* `Writes ecosystem includeTypes variant`: models of the variant are written.
* `Files ecosystem includeTypes models table`: the table holds the rows of the models that are
  written, each under the predicate of its variant, and nothing else.

Results:
* `encodeEntry?_eq_some_iff`: what is written for one model.
* `forall₂_rows`: the rows under the predicate of a variant are those of its models, in order.
* `decodeRows_eq`: rows that can all be read are read in order, and none is skipped.
* `encodeModels_files_and_recovers`: a list is filed, and read back if each of its models is.
-/

namespace Dataflow

/-- A predicate belongs to one variant. -/
theorem Variant.predicate?_inj {a b : Variant} {predicate : String}
    (ha : a.predicate? = some predicate) (hb : b.predicate? = some predicate) : a = b := by
  rw [← hb] at ha
  revert ha
  cases a <;> cases b <;> decide

namespace Ecosystem

variable {ecosystem : Ecosystem} {includeTypes : Bool}

/-- A predicate of an ecosystem belongs to one variant. -/
theorem predicate?_inj {a b : Variant} {predicate : String}
    (ha : ecosystem.predicate? a = some predicate)
    (hb : ecosystem.predicate? b = some predicate) : a = b := by
  rw [predicate?_of_supports (supports_of_predicate? ha)] at ha
  rw [predicate?_of_supports (supports_of_predicate? hb)] at hb
  exact Variant.predicate?_inj ha hb

/-! ## One model -/

/-- Models of a variant are written. -/
structure Writes (ecosystem : Ecosystem) (includeTypes : Bool) (variant : Variant) : Prop where
  /-- It models something. -/
  modeled : variant ≠ .none
  /-- It has columns. -/
  supported : ecosystem.Supports variant
  /-- Types are written on request. -/
  requested : variant = .type → includeTypes = true

theorem writes_iff {variant : Variant} :
    ecosystem.Writes includeTypes variant ↔
      ¬ (variant = .none ∨ (variant = .type ∧ includeTypes = false)) ∧
        ecosystem.Supports variant := by
  constructor
  · rintro ⟨hmodeled, hsupported, hrequested⟩
    refine ⟨?_, hsupported⟩
    rintro (hnone | ⟨htype, hinclude⟩)
    · exact hmodeled hnone
    · rw [hrequested htype] at hinclude
      exact absurd hinclude (by decide)
  · rintro ⟨hwritten, hsupported⟩
    rw [not_or, not_and, Bool.not_eq_false] at hwritten
    exact ⟨hwritten.1, hsupported, hwritten.2⟩

/-- With types included, every supported variant is written. -/
theorem writes_true {variant : Variant} (h : ecosystem.Supports variant) :
    ecosystem.Writes true variant :=
  ⟨h.ne_none, h, fun _ => rfl⟩

/-- **Writing one model**: its row, under the predicate of its variant. -/
theorem encodeEntry?_eq_some_iff {modeled : ModeledMethod} {predicate : String} {row : Row} :
    ecosystem.encodeEntry? includeTypes modeled = some (predicate, row) ↔
      ecosystem.Writes includeTypes modeled.variant ∧
        ecosystem.predicate? modeled.variant = some predicate ∧
        ecosystem.encode modeled = .ok row := by
  rw [writes_iff]
  unfold encodeEntry?
  split_ifs with hskipped
  · constructor
    · intro h
      exact absurd h (by simp)
    · rintro ⟨⟨hwritten, -⟩, -⟩
      exact absurd hskipped hwritten
  · cases hpredicate : ecosystem.predicate? modeled.variant with
    | none => simp
    | some found =>
      have hfound := supports_of_predicate? hpredicate
      cases hrow : ecosystem.encode modeled with
      | error error => simp
      | ok written => simp [hskipped, hfound]

/-! ## A list of models -/

/-- The models of a list that have a variant. -/
def ofVariant (variant : Variant) (models : List ModeledMethod) : List ModeledMethod :=
  models.filter fun modeled => modeled.variant = variant

theorem mem_ofVariant {variant : Variant} {models : List ModeledMethod} {modeled : ModeledMethod} :
    modeled ∈ ofVariant variant models ↔ modeled ∈ models ∧ modeled.variant = variant := by
  unfold ofVariant
  rw [List.mem_filter, decide_eq_true_eq]

/-- **The rows under the predicate of a variant** are those of its models, in order: a model of
another variant has no row there. -/
theorem forall₂_rows {variant : Variant} {predicate : String}
    (hwrites : ecosystem.Writes includeTypes variant)
    (hpredicate : ecosystem.predicate? variant = some predicate) (models : List ModeledMethod) :
    List.Forall₂ (fun modeled row => ecosystem.encode modeled = .ok row) (ofVariant variant models)
      (((models.filterMap (ecosystem.encodeEntry? includeTypes)).filter
        fun entry => entry.1 == predicate).map Prod.snd) := by
  unfold ofVariant
  induction models with
  | nil => exact List.Forall₂.nil
  | cons modeled models ih =>
    by_cases hvariant : modeled.variant = variant
    · subst hvariant
      obtain ⟨row, hrow⟩ := exists_encode_iff.mpr hwrites.supported
      have hentry := encodeEntry?_eq_some_iff.mpr ⟨hwrites, hpredicate, hrow⟩
      rw [List.filter_cons_of_pos (by simp), List.filterMap_cons_some hentry,
        List.filter_cons_of_pos (by simp), List.map_cons]
      exact List.Forall₂.cons hrow ih
    · rw [List.filter_cons_of_neg (by simpa using hvariant)]
      cases hentry : ecosystem.encodeEntry? includeTypes modeled with
      | none =>
        rw [List.filterMap_cons_none hentry]
        exact ih
      | some entry =>
        obtain ⟨other, row⟩ := entry
        obtain ⟨-, hfiled, -⟩ := encodeEntry?_eq_some_iff.mp hentry
        have hne : other ≠ predicate := by
          rintro rfl
          exact hvariant (predicate?_inj hfiled hpredicate)
        rw [List.filterMap_cons_some hentry, List.filter_cons_of_neg (by simpa using hne)]
        exact ih

theorem mem_predicates_iff {models : List ModeledMethod} {predicate : String} :
    predicate ∈ (models.filterMap (ecosystem.encodeEntry? includeTypes)).map Prod.fst ↔
      ∃ modeled ∈ models, ecosystem.Writes includeTypes modeled.variant ∧
        ecosystem.predicate? modeled.variant = some predicate := by
  simp only [List.mem_map, List.mem_filterMap]
  constructor
  · rintro ⟨⟨found, row⟩, ⟨modeled, hmem, hentry⟩, rfl⟩
    obtain ⟨hwrites, hpredicate, -⟩ := encodeEntry?_eq_some_iff.mp hentry
    exact ⟨modeled, hmem, hwrites, hpredicate⟩
  · rintro ⟨modeled, hmem, hwrites, hpredicate⟩
    obtain ⟨row, hrow⟩ := exists_encode_iff.mpr hwrites.supported
    exact ⟨(predicate, row),
      ⟨modeled, hmem, encodeEntry?_eq_some_iff.mpr ⟨hwrites, hpredicate, hrow⟩⟩, rfl⟩

/-- The table of a list of models is the table of its entries. -/
theorem encodeModels_eq (models : List ModeledMethod) :
    ecosystem.encodeModels includeTypes models =
      (Keyed.group Prod.fst (models.filterMap (ecosystem.encodeEntry? includeTypes))).map
        fun entry => (entry.1, entry.2.map Prod.snd) := rfl

theorem keys_encodeModels (models : List ModeledMethod) :
    (ecosystem.encodeModels includeTypes models).keys =
      Keyed.sortedKeys
        ((models.filterMap (ecosystem.encodeEntry? includeTypes)).map Prod.fst) := by
  rw [encodeModels_eq, Keyed.keys_map_value (List.map Prod.snd), Keyed.keys_group]

theorem mem_keys_encodeModels_iff {models : List ModeledMethod} {predicate : String} :
    predicate ∈ (ecosystem.encodeModels includeTypes models).keys ↔
      ∃ modeled ∈ models, ecosystem.Writes includeTypes modeled.variant ∧
        ecosystem.predicate? modeled.variant = some predicate := by
  rw [keys_encodeModels, Keyed.mem_sortedKeys, mem_predicates_iff]

theorem get?_encodeModels (models : List ModeledMethod) (predicate : String) :
    (ecosystem.encodeModels includeTypes models).get? predicate =
      if predicate ∈ (ecosystem.encodeModels includeTypes models).keys then
        some (((models.filterMap (ecosystem.encodeEntry? includeTypes)).filter
          fun entry => entry.1 == predicate).map Prod.snd)
      else none := by
  rw [keys_encodeModels, encodeModels_eq, Keyed.get?_map_value (List.map Prod.snd),
    Keyed.get?_group]
  simp only [Keyed.mem_sortedKeys]
  split_ifs <;> rfl

/-- The rows under a predicate are those of one variant. -/
theorem exists_variant_of_get? {models : List ModeledMethod} {predicate : String} {rows : List Row}
    (h : (ecosystem.encodeModels includeTypes models).get? predicate = some rows) :
    ∃ variant, ecosystem.Writes includeTypes variant ∧
      ecosystem.predicate? variant = some predicate ∧
      List.Forall₂ (fun modeled row => ecosystem.encode modeled = .ok row)
        (ofVariant variant models) rows := by
  rw [get?_encodeModels] at h
  split_ifs at h with hkey
  obtain rfl := Option.some.inj h
  obtain ⟨modeled, -, hwrites, hpredicate⟩ := mem_keys_encodeModels_iff.mp hkey
  exact ⟨modeled.variant, hwrites, hpredicate, forall₂_rows hwrites hpredicate models⟩

/-- **What a table holds that models were written to.** -/
structure Files (ecosystem : Ecosystem) (includeTypes : Bool) (models : List ModeledMethod)
    (table : Keyed (List Row)) : Prop where
  /-- The keys increase. -/
  ordered : table.Ordered
  /-- They are the predicates of the variants that are written and occur. -/
  keys : ∀ predicate, predicate ∈ table.keys ↔
    ∃ modeled ∈ models, ecosystem.Writes includeTypes modeled.variant ∧
      ecosystem.predicate? modeled.variant = some predicate
  /-- Under the predicate of a variant stand the rows of its models, in order. -/
  rows : ∀ variant predicate, ecosystem.Writes includeTypes variant →
    ecosystem.predicate? variant = some predicate → predicate ∈ table.keys →
      ∃ rows, table.get? predicate = some rows ∧
        List.Forall₂ (fun modeled row => ecosystem.encode modeled = .ok row)
          (ofVariant variant models) rows
  /-- Every model that is to be written has a row. -/
  encodes : ∀ modeled ∈ models, ecosystem.Writes includeTypes modeled.variant →
    ∃ row, ecosystem.encode modeled = .ok row

/-- **Writing a list files it.** -/
theorem files_encodeModels (ecosystem : Ecosystem) (includeTypes : Bool)
    (models : List ModeledMethod) :
    ecosystem.Files includeTypes models (ecosystem.encodeModels includeTypes models) where
  ordered := by
    unfold Keyed.Ordered
    rw [keys_encodeModels]
    exact Keyed.pairwise_sortedKeys _
  keys predicate := mem_keys_encodeModels_iff
  rows variant predicate hwrites hpredicate hkey := by
    rw [get?_encodeModels, if_pos hkey]
    exact ⟨_, rfl, forall₂_rows hwrites hpredicate models⟩
  encodes modeled _ hwrites := exists_encode_iff.mpr hwrites.supported

/-! ## Reading the rows of a variant -/

/-- Rows that can all be read are read in order, and none is skipped. -/
theorem decodeRows_eq {variant : Variant} (hsupports : ecosystem.Supports variant)
    {rows : List Row} {models : List ModeledMethod}
    (h : List.Forall₂ (fun row modeled => ecosystem.decodeChecked variant row = .ok modeled)
      rows models) :
    ecosystem.decodeRows variant rows = .ok ⟨models, 0⟩ := by
  obtain ⟨columns, hcolumns⟩ := Option.isSome_iff_exists.mp hsupports
  unfold decodeRows
  rw [hcolumns]
  simp only [Except.ok.injEq]
  induction h with
  | nil => rfl
  | cons hread _ ih =>
    rw [List.foldr_cons, ih]
    unfold DecodedRows.read
    rw [hread]

/-- A modeled method that is the same when it is written and read. -/
def Survives (ecosystem : Ecosystem) (modeled : ModeledMethod) : Prop :=
  (ecosystem.encode modeled).bind (ecosystem.decodeChecked modeled.variant) = .ok modeled

/-- The rows of models that survive are read as these models. -/
theorem forall₂_decodeChecked {variant : Variant} {models : List ModeledMethod} {rows : List Row}
    (hvariant : ∀ modeled ∈ models, modeled.variant = variant)
    (hsurvives : ∀ modeled ∈ models, ecosystem.Survives modeled)
    (h : List.Forall₂ (fun modeled row => ecosystem.encode modeled = .ok row) models rows) :
    List.Forall₂ (fun row modeled => ecosystem.decodeChecked variant row = .ok modeled)
      rows models := by
  induction h with
  | nil => exact List.Forall₂.nil
  | cons hrow _ ih =>
    have hfirst := hsurvives _ List.mem_cons_self
    unfold Survives at hfirst
    rw [hrow, hvariant _ List.mem_cons_self] at hfirst
    exact List.Forall₂.cons hfirst
      (ih (fun modeled hmem => hvariant modeled (List.mem_cons_of_mem _ hmem))
        fun modeled hmem => hsurvives modeled (List.mem_cons_of_mem _ hmem))

/-- **The rows of a variant are read back**, if each of its models is. -/
theorem decodeRows_encodeModels {models : List ModeledMethod} {variant : Variant}
    {predicate : String} (hpredicate : ecosystem.predicate? variant = some predicate)
    (hsurvives : ∀ modeled ∈ models, modeled.variant = variant → ecosystem.Survives modeled) :
    ecosystem.decodeRows variant
        (((ecosystem.encodeModels true models).get? predicate).getD []) =
      .ok ⟨ofVariant variant models, 0⟩ := by
  have hsupports := supports_of_predicate? hpredicate
  have hwrites := writes_true hsupports
  have hrows := forall₂_rows hwrites hpredicate models
  by_cases hkey : predicate ∈ (ecosystem.encodeModels true models).keys
  · rw [get?_encodeModels, if_pos hkey]
    refine decodeRows_eq hsupports (forall₂_decodeChecked ?_ ?_ hrows)
    · intro modeled hmem
      exact (mem_ofVariant.mp hmem).2
    · intro modeled hmem
      obtain ⟨hmem, hvariant⟩ := mem_ofVariant.mp hmem
      exact hsurvives modeled hmem hvariant
  · have hnone : ofVariant variant models = [] := by
      refine List.eq_nil_iff_forall_not_mem.mpr fun modeled hmodeled => hkey ?_
      obtain ⟨hmem, hsame⟩ := mem_ofVariant.mp hmodeled
      rw [← hsame] at hwrites hpredicate
      exact mem_keys_encodeModels_iff.mpr ⟨modeled, hmem, hwrites, hpredicate⟩
    rw [get?_encodeModels, if_neg hkey, hnone]
    exact decodeRows_eq hsupports List.Forall₂.nil

/-- **Lists of models are neither cut nor mixed up.** A list that is written is filed row by row.
If each of its models that is supported survives, then with types included the rows of every
variant are read as its models, in order, and none is skipped. -/
theorem encodeModels_files_and_recovers (ecosystem : Ecosystem) (models : List ModeledMethod) :
    (∀ includeTypes,
      ecosystem.Files includeTypes models (ecosystem.encodeModels includeTypes models)) ∧
    ((∀ modeled ∈ models, ecosystem.Supports modeled.variant → ecosystem.Survives modeled) →
      ∀ variant, ecosystem.Supports variant →
        ∃ predicate, ecosystem.predicate? variant = some predicate ∧
          ecosystem.decodeRows variant
              (((ecosystem.encodeModels true models).get? predicate).getD []) =
            .ok ⟨ofVariant variant models, 0⟩) := by
  refine ⟨fun includeTypes => files_encodeModels ecosystem includeTypes models, ?_⟩
  intro hsurvives variant hsupports
  obtain ⟨predicate, hpredicate⟩ := exists_predicate hsupports
  refine ⟨predicate, hpredicate, decodeRows_encodeModels hpredicate ?_⟩
  intro modeled hmem hvariant
  rw [← hvariant] at hsupports
  exact hsurvives modeled hmem hsupports

/-- The sinks around a method without a model and a type are read back in their order. -/
theorem decodeRows_cursorModels :
    let cursor : Identity :=
      ⟨"django", "db.Connection", "cursor", "", .method, "db.Connection#cursor"⟩
    let first : ModeledMethod := ⟨cursor, .sink "Argument[0]" "sql-injection" .manual⟩
    let related : ModeledMethod := ⟨cursor, .type "django.Cursor" "ReturnValue"⟩
    let second : ModeledMethod := ⟨cursor, .sink "Argument[1]" "log-injection" .manual⟩
    ∃ predicate, python.predicate? .sink = some predicate ∧
      python.decodeRows .sink
          (((python.encodeModels true [first, ⟨cursor, .none⟩, related, second]).get?
            predicate).getD []) = .ok ⟨[first, second], 0⟩ := by
  intro cursor first related second
  have hsurvives : ∀ modeled ∈ [first, ⟨cursor, .none⟩, related, second],
      python.Supports modeled.variant → python.Survives modeled := by
    unfold Survives
    decide
  exact (encodeModels_files_and_recovers python _).2 hsurvives .sink (by decide)

end Ecosystem

end Dataflow
