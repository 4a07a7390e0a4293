import Dataflow.Proofs.Named
import Dataflow.Validation
import Mathlib.Data.List.Basic
import Mathlib.Data.Nat.Init
import Mathlib.Tactic.SplitIfs

/-!
# Which models are reported as conflicts

* `neutralKind? model`: the kind of a neutral model.
* `DeniesFrom variants seen models index kind`: the model at the index is the first neutral one of
  the kind, which denies one of the `variants` and was not `seen` before the list.

Results:
* `denies_iff`: a kind denies a variant by its name; only `none` and `neutral` cannot be denied.
* `mem_conflictsFrom_iff`: the conflicts of a list are its first neutral models of such kinds.
* `pairwise_conflictsFrom`: they are found in the order of the list.
-/

namespace Dataflow.Validation

/-! ## Kinds that deny a variant -/

/-- The kind of a neutral model. -/
def neutralKind? : Model → Option String
  | .neutral kind _ => some kind
  | _ => none

/-- The variants that a neutral model can deny. -/
def deniable : List Variant :=
  [.source, .sink, .summary, .type]

theorem denies_name_iff {variants : List Variant} {variant : Variant} :
    denies variants variant.name = true ↔ variant ∈ deniable ∧ variant ∈ variants := by
  unfold denies
  have hname : Named.ofName? variant.name = some variant := LawfulNamed.ofName?_name variant
  rw [hname]
  cases variant <;> simp [deniable]

/-- A kind denies the variant of its name, unless this is `none` or `neutral`. -/
theorem denies_iff {variants : List Variant} {kind : String} :
    denies variants kind = true ↔
      ∃ variant ∈ deniable, variant.name = kind ∧ variant ∈ variants := by
  constructor
  · intro h
    cases hname : (Named.ofName? kind : Option Variant) with
    | none =>
      unfold denies at h
      rw [hname] at h
      exact absurd h Bool.false_ne_true
    | some variant =>
      obtain rfl : variant.name = kind := Named.ofName?_eq_some_iff.mp hname
      obtain ⟨hdeniable, hmem⟩ := denies_name_iff.mp h
      exact ⟨variant, hdeniable, rfl, hmem⟩
  · rintro ⟨variant, hdeniable, rfl, hmem⟩
    exact denies_name_iff.mpr ⟨hdeniable, hmem⟩

/-! ## The first neutral model of a kind -/

/-- The model at an index is the first neutral one of a kind that is reported. -/
structure DeniesFrom (variants : List Variant) (seen : List String) (models : List Model)
    (index : Nat) (kind : String) : Prop where
  /-- The kind denies one of the variants. -/
  denied : denies variants kind = true
  /-- The kind was not seen before the list. -/
  unseen : kind ∉ seen
  /-- The model is neutral and of this kind. -/
  neutral : models[index]?.bind neutralKind? = some kind
  /-- No neutral model before it is of this kind. -/
  first : ∀ earlier ∈ models.take index, neutralKind? earlier ≠ some kind

section

variable {variants : List Variant} {seen : List String} {model : Model} {models : List Model}
  {index : Nat} {kind : String}

theorem not_deniesFrom_nil : ¬ DeniesFrom variants seen [] index kind := by
  intro h
  exact absurd h.neutral (by simp)

theorem deniesFrom_zero :
    DeniesFrom variants seen (model :: models) 0 kind ↔
      neutralKind? model = some kind ∧ denies variants kind = true ∧ kind ∉ seen := by
  constructor
  · intro h
    exact ⟨h.neutral, h.denied, h.unseen⟩
  · rintro ⟨hneutral, hdenied, hunseen⟩
    exact ⟨hdenied, hunseen, hneutral, fun _ hmem => absurd hmem List.not_mem_nil⟩

theorem deniesFrom_succ :
    DeniesFrom variants seen (model :: models) (index + 1) kind ↔
      neutralKind? model ≠ some kind ∧ DeniesFrom variants seen models index kind := by
  constructor
  · intro h
    have hfirst := h.first
    rw [List.take_succ_cons, List.forall_mem_cons] at hfirst
    exact ⟨hfirst.1, h.denied, h.unseen, h.neutral, hfirst.2⟩
  · rintro ⟨hmodel, h⟩
    refine ⟨h.denied, h.unseen, h.neutral, ?_⟩
    rw [List.take_succ_cons, List.forall_mem_cons]
    exact ⟨hmodel, h.first⟩

theorem deniesFrom_cons_seen {other : String} :
    DeniesFrom variants (other :: seen) models index kind ↔
      other ≠ kind ∧ DeniesFrom variants seen models index kind := by
  constructor
  · intro h
    have hunseen := h.unseen
    rw [List.mem_cons, not_or] at hunseen
    exact ⟨Ne.symm hunseen.1, h.denied, hunseen.2, h.neutral, h.first⟩
  · rintro ⟨hne, h⟩
    refine ⟨h.denied, ?_, h.neutral, h.first⟩
    rw [List.mem_cons, not_or]
    exact ⟨Ne.symm hne, h.unseen⟩

/-! ## Conflicts -/

/-- One step of the search for conflicts. -/
theorem conflictsFrom_cons (start : Nat) :
    conflictsFrom variants start seen (model :: models) =
      match neutralKind? model with
      | none => conflictsFrom variants (start + 1) seen models
      | some kind =>
        if denies variants kind = true ∧ kind ∉ seen then
          .ofConflict start kind :: conflictsFrom variants (start + 1) (kind :: seen) models
        else conflictsFrom variants (start + 1) seen models := by
  cases model with
  | neutral kind provenance => simp [conflictsFrom, neutralKind?]
  | _ => rfl

/-- **The conflicts of a list** are its first neutral models of the kinds that deny a variant. -/
theorem mem_conflictsFrom_iff {finding : Finding} {start : Nat} :
    finding ∈ conflictsFrom variants start seen models ↔
      ∃ index kind, DeniesFrom variants seen models index kind ∧
        finding = .ofConflict (start + index) kind := by
  induction models generalizing start seen with
  | nil => simp [conflictsFrom, not_deniesFrom_nil]
  | cons model models ih =>
    have hshift : ∀ index, start + 1 + index = start + index + 1 := Nat.add_right_comm start 1
    rw [conflictsFrom_cons, ← Nat.or_exists_add_one]
    simp only [deniesFrom_zero, deniesFrom_succ, Nat.add_zero, ← Nat.add_assoc]
    cases hmodel : neutralKind? model with
    | none =>
      simp only [ih, hshift, reduceCtorEq, false_and, exists_false, false_or, ne_eq,
        not_false_eq_true, true_and]
    | some kind =>
      simp only [Option.some.injEq, ne_eq]
      split_ifs with hreported
      · have hhere : ∀ kind', kind = kind' ∧ denies variants kind' = true ∧ kind' ∉ seen ↔
            kind' = kind := by
          intro kind'
          exact ⟨fun h => h.1.symm, by rintro rfl; exact ⟨rfl, hreported⟩⟩
        simp only [List.mem_cons, ih, hshift, deniesFrom_cons_seen, hhere, exists_eq_left, ne_eq]
      · -- The kind denies nothing or was seen, and so it is not found later either.
        have hhere : ∀ kind', ¬ (kind = kind' ∧ denies variants kind' = true ∧ kind' ∉ seen) := by
          rintro kind' ⟨rfl, hreported'⟩
          exact hreported hreported'
        have hlater : ∀ index kind', ¬ kind = kind' ∧ DeniesFrom variants seen models index kind' ↔
            DeniesFrom variants seen models index kind' := by
          intro index kind'
          refine and_iff_right_of_imp fun h heq => ?_
          subst heq
          exact hreported ⟨h.denied, h.unseen⟩
        simp only [ih, hshift, hhere, hlater, false_and, exists_false, false_or]

/-- The conflicts of a list are found in its order. -/
theorem pairwise_conflictsFrom {start : Nat} :
    (conflictsFrom variants start seen models).Pairwise fun a b => a.index < b.index := by
  induction models generalizing start seen with
  | nil => exact List.Pairwise.nil
  | cons model models ih =>
    rw [conflictsFrom_cons]
    cases neutralKind? model with
    | none => exact ih
    | some kind =>
      simp only
      split_ifs
      · refine List.pairwise_cons.mpr ⟨fun finding hfinding => ?_, ih⟩
        obtain ⟨index, other, -, rfl⟩ := mem_conflictsFrom_iff.mp hfinding
        show start < start + 1 + index
        omega
      · exact ih

end

end Dataflow.Validation
